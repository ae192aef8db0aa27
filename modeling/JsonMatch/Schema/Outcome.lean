import JsonMatch.Report.Issue
import JsonMatch.Value.Json

/-!
# Outcomes of validation

Validation accepts a value with an output, which may differ from it, or rejects
it with issues.  A validator answers at once or holds back its answer until it
is awaited.

User-supplied checks run in a monad `m`.  What they may do besides answering is
up to `m`; the one thing the library asks of it, and only where a report must
survive a failing validator, is `Rescue`.
-/

namespace JsonMatch

/-- The result of a completed validation. -/
inductive Outcome where
  | success (output : Json)
  | failure (issues : Issues)

/-- What a validator answers. -/
inductive Answer (m : Type → Type) where
  | ready (outcome : Outcome)
  | pending (await : m Outcome)

namespace Answer

variable {m : Type → Type} [Monad m]

/-- Whether the answer is held back. -/
def isPending : Answer m → Bool
  | .ready _ => false
  | .pending _ => true

/-- Waits for the answer. -/
def settle : Answer m → m Outcome
  | .ready outcome => pure outcome
  | .pending await => await

end Answer

/-- Monads in which a computation that raises can be cut off there: its result
is then `none`. -/
class Rescue (m : Type → Type) where
  rescue {α : Type} : m α → m (Option α)

/-- Nothing raises. -/
instance : Rescue Id := ⟨fun result => some result⟩

/-- Every error is cut off. -/
instance {ε : Type} : Rescue (Except ε) := ⟨fun result => .ok result.toOption⟩

/-- Every error is cut off; what was done before it stays done. -/
instance {ε : Type} {m : Type → Type} [Monad m] : Rescue (ExceptT ε m) :=
  ⟨fun computation => ExceptT.mk do return .ok (← computation.run).toOption⟩

/-- Whether a run waits for what is held back or leaves it open. -/
inductive Waiting where
  | refuse
  | await
  deriving DecidableEq, Repr

end JsonMatch
