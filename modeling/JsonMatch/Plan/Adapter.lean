import JsonMatch.Plan.Validator
import JsonMatch.Precheck.OfDescription
import JsonMatch.Precheck.OfSchema

/-!
# Adapters

An adapter recognizes the validators of one family by what they show, and offers
shortcuts for them.  Two families are built in: validators that show a schema,
and validators that show a description.
-/

namespace JsonMatch

variable {m : Type → Type} [Monad m]

/-- Shortcuts for the validators of one family. -/
structure Adapter (m : Type → Type) where
  name : String
  detects : Validator m → Bool
  /-- The only scalar that the validator accepts, when it outputs it
  unchanged. -/
  literal? : Validator m → Option Json := fun _ => none
  accelerate? : Validator m → Option (Shortcut m) := fun _ => none
  /-- A field that every accepted object carries; names in the list win. -/
  discriminator? : Validator m → List String → Option Discriminator :=
    fun _ _ => none

namespace Schema

/-- Attempts a match by the precheck and, unless that decides alone, by a
fail-fast walk. -/
def attempt (schema : Schema m) (precheck : Derivation) (input : Json) :
    m Attempt := do
  if !precheck.check.passes input then return .noMatch
  else if precheck.complete then return .matched input
  else
    match ← schema.walk .refuse .failFast input with
    | (some output, state) =>
        return if state.deferred then .asyncRequired else .matched output
    | (none, state) =>
        return if state.guessed then .asyncRequired else .noMatch

/-- Attempts a match, and walks once more, waiting, when that is left open. -/
def settleAttempt (schema : Schema m) (precheck : Derivation) (input : Json) :
    m (Option Json) := do
  match ← schema.attempt precheck input with
  | .matched output => return some output
  | .noMatch => return none
  | .asyncRequired => return (← schema.walk .await .failFast input).1

end Schema

namespace Adapter

/-- Validators that show a schema. -/
def native : Adapter m where
  name := "native"
  detects validator := validator.schema?.isSome
  literal? validator :=
    match validator.schema? with
    | some (.literal value) => if value.isScalar then some value else none
    | _ => none
  accelerate? validator :=
    validator.schema?.map fun shown =>
      let precheck := shown.precheck
      { attempt := fun validator input =>
          match validator.schema? with
          | some schema => schema.attempt precheck input
          | none => validator.attempt input
        settle := fun validator input =>
          match validator.schema? with
          | some schema => schema.settleAttempt precheck input
          | none => validator.settle input }
  discriminator? validator priority := do
    let schema ← validator.schema?
    let object ← schema.object?
    Discriminator.pick? (Schema.pinnedFields object.1) priority

/-- The properties of a description that are required and pinned to a value
other than a number: numbers are compared by value in a description, and so
cannot be told apart by their texts. -/
def pinnedProperties (description : Json) : List (String × Json) :=
  let required := Description.strings (description.member? "required")
  let properties :=
    ((description.member? "properties").bind Json.members?).getD []
  properties.filterMap fun property => do
    let constant ← property.2.member? "const"
    if constant.kind == "number" || !required.contains property.1 then none
    else some (property.1, constant)

/-- Validators that show a description.  The precheck only rejects; a value that
passes goes on to the validator, which may also change it. -/
def described : Adapter m where
  name := "described"
  detects validator := validator.description?.isSome
  accelerate? validator :=
    validator.description?.map fun description =>
      let precheck := description.described
      { attempt := fun validator input =>
          if precheck.passes input then validator.attempt input
          else return .noMatch
        settle := fun validator input =>
          if precheck.passes input then validator.settle input
          else return none }
  discriminator? validator priority := do
    let description ← validator.description?
    if (description.member? "type").bind Json.string? == some "object" then
      Discriminator.pick? (pinnedProperties description) priority
    else none

def builtIn : List (Adapter m) :=
  [native, described]

end Adapter

end JsonMatch
