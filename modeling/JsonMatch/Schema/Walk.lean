import JsonMatch.Schema.Fields

/-!
# Walks and validation

A walk holds a value to a schema.  It carries the path of the part it looks at,
the issues found so far, and two marks: `deferred` when a check was left open
because it has to be awaited, and `guessed` when an output stands in for one
that has to be awaited, so that later findings may not hold.

A collecting walk records every issue.  A fail-fast walk stops at the first
failure and records none.  Each kind of schema node has its check below, built
from the checks of its parts.

Validation first walks without waiting.  It answers at once when nothing was
left open, or when issues were found and none of them rests on a guess; its
answer is held back otherwise, and comes from a second walk that waits.
-/

namespace JsonMatch

/-- How much a walk reports. -/
inductive Mode where
  | collect
  | failFast
  deriving DecidableEq, Repr

/-- What a walk carries along. -/
structure WalkState where
  path : Path := []
  issues : List Issue := []
  deferred : Bool := false
  guessed : Bool := false
  deriving DecidableEq, Repr

/-- A computation of a walk. -/
abbrev Walk (m : Type → Type) (α : Type) := StateT WalkState m α

/-- The walk through one node: an output, or `none` for a rejection. -/
abbrev Check (m : Type → Type) := Mode → Json → Walk m (Option Json)

variable {m : Type → Type} [Monad m] {α : Type}

namespace Walk

/-- Rejects the part at the current path. -/
def reject (mode : Mode) (code message : String) : Walk m (Option α) := do
  if mode = .collect then
    modify fun state =>
      { state with issues := state.issues ++ [⟨state.path, message, code⟩] }
  return none

def wrongKind (mode : Mode) (expected : String) (value : Json) :
    Walk m (Option α) :=
  reject mode "invalid_type" ("expected " ++ expected ++ ", got " ++ value.kind)

/-- Rejects the part at the current path with the issues of another validator,
whose paths begin there. -/
def rejectWith (mode : Mode) (issues : Issues) : Walk m (Option α) := do
  if mode = .collect then
    modify fun state =>
      { state with issues := state.issues ++ issues.toList.map fun issue =>
          issue.moveTo (issue.path.below state.path) }
  return none

/-- Walks through a part. -/
def within (step : PathStep) (walk : Walk m α) : Walk m α := do
  modify fun state => { state with path := state.path.enter step }
  let result ← walk
  modify fun state => { state with path := state.path.leave }
  return result

def defer : Walk m PUnit :=
  modify fun state => { state with deferred := true }

/-- Lets an output stand in for one that has to be awaited. -/
def guess : Walk m PUnit :=
  modify fun state => { state with deferred := true, guessed := true }

/-- Walks through all parts in order; each of them has to be accepted.  After a
failure a fail-fast walk stops, and a collecting one goes on for the issues. -/
def allOf (mode : Mode) : List (Walk m (Option α)) → Walk m (Option (List α))
  | [] => return some []
  | part :: parts => do
      match ← part with
      | some output => return (← allOf mode parts).map (output :: ·)
      | none =>
          if mode = .collect then
            let _ ← allOf mode parts
          return none

/-- Tries an option in a fail-fast walk of its own.  An option that matched with
a check left open may still fail, and then another option would win; so its
output is a guess. -/
def tryOption (option : Check m) (value : Json) : Walk m (Option Json) := do
  let state ← get
  let (output, trial) ← (option .failFast value).run { path := state.path }
  if trial.guessed || (output.isSome && trial.deferred) then guess
  return output

/-- The output of the first option that accepts. -/
def firstOf (value : Json) : List (Check m) → Walk m (Option Json)
  | [] => return none
  | option :: options => do
      match ← tryOption option value with
      | some output => return some output
      | none => firstOf value options

end Walk

namespace Check

open Walk

def literal (expected : Json) : Check m := fun mode value =>
  if value == expected then return some value
  else reject mode "invalid_literal" ("expected literal " ++ expected.text)

def primitive (kind : Primitive) : Check m := fun mode value =>
  if kind.accepts value then return some value
  else wrongKind mode kind.name value

/-- A declared field in the members of an object: the member to output, or
nothing for an optional field that is absent. -/
def declaredField (mode : Mode) (members : Members) (field : Field (Check m)) :
    Walk m (Option (List (String × Json))) :=
  match members.get? field.name with
  | some value => do
      let output ← within (.key field.name) (field.schema mode value)
      return output.map fun output => [(field.name, output)]
  | none =>
      match field.presence with
      | .required =>
          within (.key field.name)
            (reject mode "required" ("required field '" ++
              field.name ++ "' is missing"))
      | .optional => return some []
      | .default value => return some [(field.name, value)]

/-- A member that is not declared. -/
def unknownMember (mode : Mode) (unknown : OtherKeys (Check m))
    (member : String × Json) : Walk m (Option (List (String × Json))) :=
  match unknown with
  | .allow => return some [member]
  | .deny =>
      within (.key member.1)
        (reject mode "unknown_field" ("unknown field '" ++ member.1 ++ "'"))
  | .validate schema => do
      let output ← within (.key member.1) (schema mode member.2)
      return output.map fun output => [(member.1, output)]

/-- The declared fields in order, then the other members by ascending key. -/
def object (fields : List (Field (Check m))) (unknown : OtherKeys (Check m)) :
    Check m := fun mode value =>
  match value with
  | .object members => do
      let extra := members.filter fun member => !Field.declares fields member.1
      let outputs ← allOf mode <|
        fields.map (declaredField mode members) ++
          extra.map (unknownMember mode unknown)
      return outputs.map fun outputs => .object (Members.ofList outputs.flatten)
  | value => wrongKind mode "object" value

/-- The items of an array, each held to the check for its position; items
without a check are left out. -/
def items (mode : Mode) (checkAt : Nat → Option (Check m))
    (values : List Json) : Walk m (Option Json) := do
  let parts := values.zipIdx.filterMap fun (value, position) =>
    (checkAt position).map fun check =>
      within (.index position) (check mode value)
  return (← allOf mode parts).map Json.array

def array (item : Check m) : Check m := fun mode value =>
  match value with
  | .array values => items mode (fun _ => some item) values
  | value => wrongKind mode "array" value

/-- Arrays with a check for each position and one for the items after them. -/
def tuple (positions : List (Check m)) (rest : Option (Check m)) : Check m :=
  fun mode value =>
    match value with
    | .array values =>
        if Schema.tupleLengthFits positions.length rest.isSome
            values.length then
          items mode (fun position => positions[position]?.or rest) values
        else
          reject mode "tuple_length"
            ("expected " ++ (if rest.isSome then "at least " else "") ++
              toString positions.length ++ " items, got " ++
                toString values.length)
    | value => wrongKind mode "tuple" value

/-- The first option that accepts. -/
def union (options : List (Check m)) : Check m := fun mode value => do
  match ← firstOf value options with
  | some output => return some output
  | none =>
      reject mode "union_none_matched"
        ("value did not match any of " ++ toString options.length ++ " options")

/-- Whether an option pinned to a scalar, or to none, can accept an object with
this value at the key. -/
def isCandidate (found : Option Json) (tag : Option Json) : Bool :=
  match tag with
  | some tag => found.bind Json.scalarKey? == tag.scalarKey?
  | none => true

/-- The first candidate that accepts, each option coming with the scalar it pins
the key to.  When all candidates reject, the first one's issues are reported. -/
def variant (key : String) (options : List (Option Json × Check m)) : Check m :=
  fun mode value =>
    match value with
    | .object members => do
        let found := Members.get? members key
        match (options.filter fun option => isCandidate found option.1).map
          Prod.snd with
        | [] =>
            let expected := (options.filterMap Prod.fst).map Json.text
            within (.key key) <| reject mode "invalid_discriminator"
              ("invalid discriminator: expected one of " ++
                String.intercalate ", " expected ++ ", got " ++
                (found.map Json.text).getD "nothing")
        | first :: others =>
            match ← firstOf value (first :: others) with
            | some output => return some output
            | none =>
                if mode = .collect then
                  let _ ← first mode value
                return none
    | value => wrongKind mode "object" value

/-- A rule on the output of another check. -/
def refined (inner : Check m) (rule : Rule m) (message : Option String) :
    Check m :=
  fun mode value => do
    match ← inner mode value with
    | some output =>
        if ← rule.holds output then return some output
        else reject mode rule.code (message.getD rule.describe)
    | none => return none

def transform (inner : Check m) (map : Json → m Json) : Check m :=
    fun mode value => do
  match ← inner mode value with
  | some output => return some (← map output)
  | none => return none

/-- A check of an output that has to be awaited. -/
def asyncRefined (waiting : Waiting) (inner : Check m) (test : Json → m Bool)
    (message : String) : Check m := fun mode value => do
  match ← inner mode value with
  | some output =>
      match waiting with
      | .refuse => do
          defer
          return some output
      | .await =>
          if ← test output then return some output
          else reject mode "async_refinement" message
  | none => return none

/-- Another validator.  An answer that it holds back is awaited, or the value
itself stands in for its output. -/
def custom (waiting : Waiting) (validate : Json → m (Answer m)) : Check m :=
  fun mode value => do
    match waiting, ← validate value with
    | .refuse, .pending _ => do
        guess
        return some value
    | _, answer =>
        match ← answer.settle with
        | .success output => return some output
        | .failure issues => rejectWith mode issues

end Check

namespace Schema

mutual

/-- The walk through a schema. -/
def check (waiting : Waiting) : Schema m → Check m
  | .literal value => Check.literal value
  | .primitive kind => Check.primitive kind
  | .object fields unknown =>
      Check.object (checkFields waiting fields) (checkUnknown waiting unknown)
  | .tuple items rest =>
    Check.tuple (checkAll waiting items) (checkRest waiting rest)
  | .array item => Check.array (item.check waiting)
  | .union options => Check.union (checkAll waiting options)
  | .variant key options =>
      Check.variant key
        ((options.map (·.tag? key)).zip (checkAll waiting options))
  | .refined inner rule message =>
    Check.refined (inner.check waiting) rule message
  | .transform inner map => Check.transform (inner.check waiting) map
  | .asyncRefined inner test message =>
      Check.asyncRefined waiting (inner.check waiting) test message
  | .custom validate => Check.custom waiting validate

def checkFields (waiting : Waiting) :
    List (Field (Schema m)) → List (Field (Check m))
  | [] => []
  | ⟨name, presence, schema⟩ :: fields =>
      ⟨name, presence, schema.check waiting⟩ :: checkFields waiting fields

def checkUnknown (waiting : Waiting) :
    OtherKeys (Schema m) → OtherKeys (Check m)
  | .allow => .allow
  | .deny => .deny
  | .validate schema => .validate (schema.check waiting)

def checkAll (waiting : Waiting) : List (Schema m) → List (Check m)
  | [] => []
  | schema :: schemas => schema.check waiting :: checkAll waiting schemas

def checkRest (waiting : Waiting) : Option (Schema m) → Option (Check m)
  | none => none
  | some schema => some (schema.check waiting)

end

end Schema

section Validation

variable {m : Type → Type} [Monad m]

namespace WalkState

/-- The outcome at the end of a walk. -/
def conclude (output : Option Json) (state : WalkState) : Outcome :=
  match Issues.ofList? state.issues with
  | some issues => .failure issues
  | none =>
      match output with
      | some output => .success output
      | none => .failure (.ofMessage "value rejected")

/-- Whether a walk without waiting settles the outcome. -/
def settles (state : WalkState) : Bool :=
  !state.deferred || (!state.issues.isEmpty && !state.guessed)

end WalkState

namespace Schema

/-- A whole walk, from the value itself on. -/
def walk (schema : Schema m) (waiting : Waiting) (mode : Mode) (value : Json) :
    m (Option Json × WalkState) :=
  (schema.check waiting mode value).run {}

def settled (schema : Schema m) (value : Json) : m Outcome := do
  let (output, state) ← schema.walk .await .collect value
  return state.conclude output

def validate (schema : Schema m) (value : Json) : m (Answer m) := do
  let (output, state) ← schema.walk .refuse .collect value
  if state.settles then return .ready (state.conclude output)
  else return .pending (schema.settled value)

end Schema

end Validation

end JsonMatch
