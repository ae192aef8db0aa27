import JsonMatch.Precheck.OfDescription
import JsonMatch.Proofs.ExactEquality
import JsonMatch.Proofs.MemberLists

/-!
# What a description allows

The values that a description allows, by the keywords of JSON Schema that are
read.  Numbers are compared by exact value at every depth, an integral
floating-point number is an integer, a description that is no object says
nothing, and neither does an unknown name of a type.
-/

namespace JsonMatch

namespace Description

def isWhole (value : Json) : Bool :=
  value.units?.any fun units : Int => units % Finite64.unitsPerOne == 0

theorem kind_of_isWhole {value : Json} (whole : isWhole value = true) :
    value.kind = "number" := by
  cases value <;> first | rfl | cases whole

/-- Whether a value has a type, by the name of the type. -/
def hasType (name : String) (value : Json) : Bool :=
  if name = "integer" then isWhole value
  else if name ∈ ["null", "boolean", "number", "string", "array", "object"] then
    value.kind == name
  else true

def allowsConst (keywords : Members) (value : Json) : Bool :=
  (keywords.get? "const").all value.equals

def allowsEnum (keywords : Members) (value : Json) : Bool :=
  match keywords.get? "enum" with
  | some (.array values) => values.any value.equals
  | _ => true

/-- The keyword `type`, with one name or a list of names. -/
def allowsType (keywords : Members) (value : Json) : Bool :=
  match keywords.get? "type" with
  | some (.string name) => hasType name value
  | some (.array names) =>
    names.any fun name => name.string?.any (hasType · value)
  | _ => true

/-- The keyword `required`, about objects. -/
def allowsRequired (keywords : Members) (value : Json) : Bool :=
  match keywords.get? "required", value with
  | some (.array names), .object members =>
      names.all fun name => name.string?.all fun key =>
        (Members.get? members key).isSome
  | _, _ => true

/-- The keyword `properties`, about the members of objects. -/
def allowsProperties (properties : List (String × Condition)) (value : Json) :
    Bool :=
  properties.all fun property => (value.member? property.1).all property.2

/-- The keyword `items`, about every item of an array. -/
def allowsItems (item : Option Condition) (value : Json) : Bool :=
  item.all fun condition => value.items?.all fun items => items.all condition

def allowsAny (options : Option (List Condition)) (value : Json) : Bool :=
  options.all fun options => options.any fun condition => condition value

def allowsOne (options : Option (List Condition)) (value : Json) : Bool :=
  options.all fun options =>
    (options.countP fun condition => condition value) == 1

end Description

namespace Json

open Description

mutual

/-- Whether a description allows a value. -/
def allows : Json → Condition
  | .object keywords => fun value =>
      allowsConst keywords value && allowsEnum keywords value &&
        allowsType keywords value &&
        allowsRequired keywords value &&
        allowsProperties (allowedProperties keywords) value &&
        allowsItems (allowedItem? keywords) value &&
        allowsAny (allowedOptions? "anyOf" keywords) value &&
        allowsOne (allowedOptions? "oneOf" keywords) value
  | _ => fun _ => true

def allowedAll : List Json → List Condition
  | [] => []
  | value :: values => value.allows :: allowedAll values

/-- What the descriptions of the members of an object allow. -/
def allowedMembers : List (String × Json) → List (String × Condition)
  | [] => []
  | (name, value) :: members => (name, value.allows) :: allowedMembers members

/-- What the descriptions in the members of a value allow, if it is an
object. -/
def allowedMembersOf : Json → List (String × Condition)
  | .object members => allowedMembers members
  | _ => []

/-- What the descriptions in the items of a value allow, if it is an array. -/
def allowedItemsOf? : Json → Option (List Condition)
  | .array items => some (allowedAll items)
  | _ => none

def allowedProperties : List (String × Json) → List (String × Condition)
  | [] => []
  | (keyword, value) :: keywords =>
      if keyword = "properties" then value.allowedMembersOf
      else allowedProperties keywords

def allowedItem? : List (String × Json) → Option Condition
  | [] => none
  | (keyword, value) :: keywords =>
      if keyword = "items" then some value.allows else allowedItem? keywords

/-- What the descriptions in the list under a keyword allow. -/
def allowedOptions? (name : String) :
    List (String × Json) → Option (List Condition)
  | [] => none
  | (keyword, value) :: keywords =>
      if keyword = name then value.allowedItemsOf?
      else allowedOptions? name keywords

end

theorem allowedAll_eq_map (values : List Json) :
    allowedAll values = values.map allows := by
  induction values with
  | nil => rfl
  | cons value values induction => rw [allowedAll, List.map_cons, induction]

theorem allowedMembers_eq_map (members : List (String × Json)) :
    allowedMembers members = members.map fun member =>
      (member.1, member.2.allows) := by
  induction members with
  | nil => rfl
  | cons member members induction =>
      rw [List.map_cons, ← induction]
      rfl

theorem allowedProperties_eq (keywords : Members) :
    allowedProperties keywords =
      ((keywords.get? "properties").map allowedMembersOf).getD [] :=
  Members.search_eq rfl (fun _ _ _ => rfl) keywords

theorem allowedItem?_eq (keywords : Members) :
    allowedItem? keywords =
      ((keywords.get? "items").map fun value => some value.allows).getD none :=
  Members.search_eq rfl (fun _ _ _ => rfl) keywords

theorem allowedOptions?_eq (name : String) (keywords : Members) :
    allowedOptions? name keywords =
      ((keywords.get? name).map allowedItemsOf?).getD none :=
  Members.search_eq rfl (fun _ _ _ => rfl) keywords

/-- A value is allowed when each keyword allows it. -/
theorem allows_object (keywords : Members) (value : Json) :
    (object keywords).allows value = true ↔
      allowsConst keywords value = true ∧ allowsEnum keywords value = true ∧
        allowsType keywords value = true ∧
        allowsRequired keywords value = true ∧
        allowsProperties
          (((keywords.get? "properties").map allowedMembersOf).getD [])
          value = true ∧
        allowsItems (((keywords.get? "items").map fun item =>
          some item.allows).getD none)
          value = true ∧
        allowsAny (((keywords.get? "anyOf").map allowedItemsOf?).getD none)
          value = true ∧
        allowsOne (((keywords.get? "oneOf").map allowedItemsOf?).getD none)
          value = true := by
  rw [allows, allowedProperties_eq, allowedItem?_eq, allowedOptions?_eq,
    allowedOptions?_eq]
  simp only [Bool.and_eq_true, and_assoc]

end Json

end JsonMatch
