import JsonMatch.Plan.Store

/-!
# Compiled validators

A compiled validator is a validator with its plan.

A computation `e` that keeps the store and runs callbacks of `m` is all that is
needed to compile and to match.
-/

namespace JsonMatch

/-- A validator with its plan. -/
structure CompiledValidator (m : Type → Type) where
  validator : Validator m
  plan : Plan m

namespace CompiledValidator

variable {m : Type → Type} [Monad m]

/-- Attempts a match without waiting. -/
def attempt (compiled : CompiledValidator m) (input : Json) : m Attempt :=
  match compiled.plan.strategy with
  | .literal value => return if input == value then .matched input else .noMatch
  | .accelerated check => check.attempt compiled.validator input
  | .generic => compiled.validator.attempt input

/-- Attempts a match and waits; the output if there is one. -/
def settle (compiled : CompiledValidator m) (input : Json) : m (Option Json) :=
  match compiled.plan.strategy with
  | .literal value => return if input == value then some input else none
  | .accelerated check => check.settle compiled.validator input
  | .generic => compiled.validator.settle input

/-- Attempts a match, waiting or not. -/
def attemptWith (compiled : CompiledValidator m) (waiting : Waiting)
    (input : Json) : m Attempt :=
  match waiting with
  | .refuse => compiled.attempt input
  | .await => return .ofVerdict (← compiled.settle input)

/-- The plan as it is shown when a compiled validator is printed. -/
def text (compiled : CompiledValidator m) : String :=
  "CompiledMatcher \x7b plan: MatchPlan \x7b family: " ++
    quote compiled.plan.family ++
    ", strategy: " ++ quote compiled.plan.strategy.name ++ " \x7d, .. \x7d"

end CompiledValidator

/-- A slot as it is shown when it is printed. -/
def slotText (filled : Bool) : String :=
  "MatcherSlot \x7b compiled: " ++
    (if filled then "true" else "false") ++ " \x7d"

section

variable {m e : Type → Type} [Monad e] [MonadStateOf (Store m) e]

def freshIdentity (m : Type → Type) [MonadStateOf (Store m) e] : e Identity :=
  modifyGetThe (Store m) Store.fresh

def Compiler.compile (compiler : Compiler m) (validator : Validator m) :
    e (CompiledValidator m) := do
  let plan ← modifyGetThe (Store m) fun store => store.planOf compiler validator
  return ⟨validator, plan⟩

end

end JsonMatch
