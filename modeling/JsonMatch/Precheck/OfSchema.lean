import JsonMatch.Precheck.Basic
import JsonMatch.Schema.Fields

/-!
# The precheck of a schema

The precheck follows the tree.  It is complete when it decides acceptance alone
and the output is the value itself; any refinement, transform, default, awaited
check or opaque validator in the tree makes it incomplete.
-/

namespace JsonMatch

/-- A precheck, and whether it is complete. -/
structure Derivation where
  check : Precheck
  complete : Bool

namespace Derivation

/-- The derivation for an object from those for its parts. -/
def object (fields : List (Field Derivation)) (unknown : OtherKeys Derivation) :
    Derivation where
  check :=
    .object
      (fields.map fun field =>
        let required := match field.presence with
          | .required => true
          | .optional | .default _ => false
        ⟨field.name, required, field.schema.check⟩)
      (match unknown with
        | .allow => .allow
        | .deny => .deny
        | .validate other => .validate other.check)
  complete :=
    (fields.all fun field =>
      field.schema.complete && match field.presence with
        | .default _ => false
        | .required | .optional => true) &&
      match unknown with
      | .allow | .deny => true
      | .validate other => other.complete

def array (item : Derivation) : Derivation :=
  ⟨.array item.check, item.complete⟩

/-- The derivation for a node whose own part in acceptance or in the output is
not covered. -/
def incomplete (inner : Derivation) : Derivation :=
  ⟨inner.check, false⟩

def allComplete (parts : List Derivation) : Bool :=
  parts.all (·.complete)

def tuple (items : List Derivation) (rest : Option Derivation) :
    Derivation where
  check := .tuple (items.map (·.check)) (rest.map (·.check))
  complete := allComplete items && rest.all (·.complete)

def union (options : List Derivation) : Derivation where
  check := .anyOf (options.map (·.check))
  complete := allComplete options

/-- The derivation for a variant, each option coming with the scalar it pins the
key to. -/
def variant (key : String) (options : List (Option Json × Derivation)) :
    Derivation where
  check :=
    .variant key (options.map fun option =>
      (option.1.bind Json.scalarKey?, option.2.check))
  complete := allComplete (options.map Prod.snd)

end Derivation

namespace Schema

variable {m : Type → Type}

mutual

/-- The precheck of a schema. -/
def precheck : Schema m → Derivation
  | .literal value => ⟨.literal value, true⟩
  | .primitive .any => ⟨.any, true⟩
  | .primitive kind => ⟨.kind kind, true⟩
  | .object fields unknown =>
      Derivation.object (precheckFields fields) (precheckUnknown unknown)
  | .tuple items rest =>
    Derivation.tuple (precheckAll items) (precheckRest rest)
  | .array item => Derivation.array item.precheck
  | .union options => Derivation.union (precheckAll options)
  | .variant key options =>
      Derivation.variant key
        ((options.map (·.tag? key)).zip (precheckAll options))
  | .refined inner _ _ => Derivation.incomplete inner.precheck
  | .transform inner _ => Derivation.incomplete inner.precheck
  | .asyncRefined inner _ _ => Derivation.incomplete inner.precheck
  | .custom _ => ⟨.any, false⟩

def precheckFields : List (Field (Schema m)) → List (Field Derivation)
  | [] => []
  | ⟨name, presence, schema⟩ :: fields =>
      ⟨name, presence, schema.precheck⟩ :: precheckFields fields

def precheckUnknown : OtherKeys (Schema m) → OtherKeys Derivation
  | .allow => .allow
  | .deny => .deny
  | .validate schema => .validate schema.precheck

def precheckAll : List (Schema m) → List Derivation
  | [] => []
  | schema :: schemas => schema.precheck :: precheckAll schemas

def precheckRest : Option (Schema m) → Option Derivation
  | none => none
  | some schema => some schema.precheck

end

end Schema

end JsonMatch
