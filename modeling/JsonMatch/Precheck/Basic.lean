import JsonMatch.Schema.Tree

/-!
# Prechecks

A precheck is a cheap necessary condition for a value to be accepted.  It is a
plain condition on the value: it runs no callback and finds no issue.
-/

namespace JsonMatch

/-- A field of an object in a precheck. -/
structure ExpectedField (σ : Type) where
  name : String
  required : Bool
  check : σ

/-- A condition on values. -/
inductive Precheck where
  | any
  | literal (value : Json)
  /-- Equality in a description: numbers by value. -/
  | equal (value : Json)
  | kind (expected : Primitive)
  | object (fields : List (ExpectedField Precheck))
      (unknown : OtherKeys Precheck)
  | tuple (items : List Precheck) (rest : Option Precheck)
  | array (item : Precheck)
  | anyOf (options : List Precheck)
  | allOf (parts : List Precheck)
  /-- Some option pinned to the value of the key, or to none. -/
  | variant (key : String) (options : List (Option ScalarKey × Precheck))

/-- A condition as a function. -/
abbrev Condition := Json → Bool

namespace Condition

/-- The declared fields and the other members of an object. -/
def object (fields : List (ExpectedField Condition))
    (unknown : OtherKeys Condition) :
    Condition
  | .object members =>
      let declared (key : String) := fields.any fun field => field.name == key
      let fieldsPass := fields.all fun field =>
        match Members.get? members field.name with
        | some value => field.check value
        | none => !field.required
      let othersPass := match unknown with
        | .allow => true
        | .deny => members.all fun member => declared member.1
        | .validate check =>
            members.all fun member => declared member.1 || check member.2
      fieldsPass && othersPass
  | _ => false

/-- The positions of a tuple and the items after them. -/
def tuple (positions : List Condition) (rest : Option Condition) : Condition
  | .array values =>
      Schema.tupleLengthFits positions.length rest.isSome values.length &&
        values.zipIdx.all fun (value, position) =>
          match positions[position]?.or rest with
          | some check => check value
          | none => true
  | _ => false

def array (item : Condition) : Condition
  | .array values => values.all item
  | _ => false

/-- Some option that can be meant. -/
def variant (key : String)
    (options : List (Option ScalarKey × Condition)) : Condition
  | .object members =>
      let found := (Members.get? members key).bind Json.scalarKey?
      options.any fun option =>
        match option.1 with
        | some tag => found == some tag && option.2 (.object members)
        | none => option.2 (.object members)
  | _ => false

end Condition

namespace Precheck

mutual

/-- Whether a value meets the condition. -/
def passes : Precheck → Condition
  | .any => fun _ => true
  | .literal expected => fun value => value == expected
  | .equal expected => fun value => value.sameByNumber expected
  | .kind expected => expected.accepts
  | .object fields unknown =>
    Condition.object (passesFields fields) (passesUnknown unknown)
  | .tuple items rest => Condition.tuple (passesAll items) (passesRest rest)
  | .array item => Condition.array item.passes
  | .anyOf options => fun value => (passesAll options).any (· value)
  | .allOf parts => fun value => (passesAll parts).all (· value)
  | .variant key options => Condition.variant key (passesOptions options)

def passesFields : List (ExpectedField Precheck) →
    List (ExpectedField Condition)
  | [] => []
  | ⟨name, required, check⟩ :: fields =>
    ⟨name, required, check.passes⟩ :: passesFields fields

def passesUnknown : OtherKeys Precheck → OtherKeys Condition
  | .allow => .allow
  | .deny => .deny
  | .validate check => .validate check.passes

def passesAll : List Precheck → List Condition
  | [] => []
  | check :: checks => check.passes :: passesAll checks

def passesRest : Option Precheck → Option Condition
  | none => none
  | some check => some check.passes

def passesOptions : List (Option ScalarKey × Precheck) →
    List (Option ScalarKey × Condition)
  | [] => []
  | (tag, check) :: options => (tag, check.passes) :: passesOptions options

end

end Precheck

end JsonMatch
