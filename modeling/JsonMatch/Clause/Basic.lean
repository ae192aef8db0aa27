import JsonMatch.Plan.Validator

/-!
# Clauses

A clause is one branch of a match: validators tried in order, with an optional
guard, or a predicate on the input; and a handler that makes the result.
Guards, predicates and handlers may have to be awaited.
-/

namespace JsonMatch

/-- A second check, of an accepted output and the input. -/
structure Guard (m : Type → Type) where
  suspends : Bool
  admits : Json → Json → m Bool

/-- A condition on the input. -/
structure Predicate (m : Type → Type) where
  suspends : Bool
  holds : Json → m Bool

/-- Makes the result from an accepted output and the input. -/
structure Handler (m : Type → Type) (ρ : Type) where
  suspends : Bool
  respond : Json → Json → m ρ

/-- One branch of a match with results in `ρ`. -/
inductive Clause (m : Type → Type) (ρ : Type) where
  | schemas (validators : List (Validator m)) (guard : Option (Guard m))
      (handler : Handler m ρ)
  | when (predicate : Predicate m) (handler : Handler m ρ)

namespace Clause

variable {m : Type → Type} {ρ : Type}

def validators : Clause m ρ → List (Validator m)
  | .schemas validators _ _ => validators
  | .when _ _ => []

/-- Whether accepted outputs are checked again. -/
def isGuarded : Clause m ρ → Bool
  | .schemas _ guard _ => guard.isSome
  | .when _ _ => false

/-- Whether the clause has validators or needs none. -/
def isWellFormed : Clause m ρ → Bool
  | .schemas validators _ _ => !validators.isEmpty
  | .when _ _ => true

/-- A clause as it is shown when it is printed. -/
def text : Clause m ρ → String
  | .schemas validators guard _ =>
      "Schemas \x7b schemas: " ++ toString validators.length ++ ", guarded: " ++
        (if guard.isSome then "true" else "false") ++ ", .. \x7d"
  | .when _ _ => "When \x7b .. \x7d"

end Clause

end JsonMatch
