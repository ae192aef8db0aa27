import JsonMatch.Schema.Walk

/-!
# Validators and attempts

A validator is anything that validates values.  It has an identity, under which
what is compiled for it is kept, and may show how it decides: by a schema, or by
a description of the values it accepts.

An attempt asks a validator whether it accepts an input, and for its output, but
not for issues.  It can be faster than validation, as long as it gives the same
verdict.
-/

namespace JsonMatch

/-- What tells two things apart that may be equal in all their parts. -/
abbrev Identity := Nat

/-- A validator whose callbacks run in `m`. -/
structure Validator (m : Type → Type) where
  identity : Identity
  /-- Whether its plan is kept with the validator itself, for all compilers. -/
  slotted : Bool
  validate : Json → m (Answer m)
  /-- The schema that it shows. -/
  schema? : Option (Schema m)
  /-- The description that it shows; every value it accepts meets it. -/
  description? : Option Json

/-- The result of an attempt that does not wait. -/
inductive Attempt where
  | noMatch
  /-- The verdict has to be awaited. -/
  | asyncRequired
  | matched (output : Json)

/-- The verdict of an outcome. -/
def Outcome.accepted? : Outcome → Option Json
  | .success output => some output
  | .failure _ => none

/-- The attempt that has this verdict. -/
def Attempt.ofVerdict : Option Json → Attempt
  | some output => .matched output
  | none => .noMatch

namespace Validator

variable {m : Type → Type} [Monad m]

def ofSchema (identity : Identity) (schema : Schema m) : Validator m where
  identity
  slotted := true
  validate := schema.validate
  schema? := some schema
  description? := none

/-- A validator that shows nothing. -/
def ofFunction (identity : Identity) (validate : Json → m (Answer m)) :
    Validator m where
  identity
  slotted := false
  validate
  schema? := none
  description? := none

/-- An attempt by validation. -/
def attempt (validator : Validator m) (input : Json) : m Attempt := do
  match ← validator.validate input with
  | .ready outcome => return .ofVerdict outcome.accepted?
  | .pending _ => return .asyncRequired

/-- A waiting attempt by validation. -/
def settle (validator : Validator m) (input : Json) : m (Option Json) := do
  let answer ← validator.validate input
  return (← answer.settle).accepted?

end Validator

/-- A fast check for the validators of a family.  The validator is handed over
with every call, so that what is derived from it can be kept without it. -/
structure Shortcut (m : Type → Type) where
  /-- Attempts a match without waiting. -/
  attempt : Validator m → Json → m Attempt
  /-- Attempts a match and waits; the output if there is one. -/
  settle : Validator m → Json → m (Option Json)

end JsonMatch
