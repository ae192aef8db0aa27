import JsonMatch.Precheck.Basic

/-!
# The precheck of a description

A validator may describe the values it accepts by a JSON value in the language
of JSON Schema.  The keywords read are `const`, `enum`, `type`, `properties`,
`required`, `items`, `anyOf` and `oneOf`; all others are ignored.  Numbers are
compared by value, and `integer` is read as `number`, since an integral
floating-point number counts as an integer there.
-/

namespace JsonMatch

namespace Description

/-- The members of a description that are strings in an array. -/
def strings : Option Json → List String
  | some (.array items) => items.filterMap Json.string?
  | _ => []

/-- The condition for a name of a type. -/
def kind? : String → Option Precheck
  | "null" => some (.kind .null)
  | "boolean" => some (.kind .boolean)
  | "number" => some (.kind .number)
  | "integer" => some (.kind .number)
  | "string" => some (.kind .string)
  | "array" => some (.array .any)
  | "object" => some (.object [] .allow)
  | _ => none

/-- The names under `type`: one, or a list. -/
def typeNames (keywords : Members) : List String :=
  match keywords.get? "type" with
  | some (.string name) => [name]
  | types => strings types

def enumPart (keywords : Members) : List Precheck :=
  match keywords.get? "enum" with
  | some (.array values) => [.anyOf (values.map .equal)]
  | _ => []

/-- The types, unless there are none or one of them is unknown. -/
def typePart (keywords : Members) : List Precheck :=
  let names := typeNames keywords
  let kinds := names.filterMap kind?
  if !kinds.isEmpty && kinds.length == names.length then [.anyOf kinds] else []

/-- Adds a field for every required name that has none yet. -/
def addRequired (fields : List (ExpectedField Precheck))
    (required : List String) : List (ExpectedField Precheck) :=
  required.foldl
    (fun fields name =>
      if fields.any fun field => field.name == name then fields
      else fields ++ [⟨name, true, .any⟩])
    fields

/-- The described properties and the required names. -/
def objectPart (keywords : Members) (properties : List (String × Precheck)) :
    List Precheck :=
  let required := strings (keywords.get? "required")
  let fields := addRequired
    (properties.map fun property =>
      ⟨property.1, required.contains property.1, property.2⟩)
    required
  if typeNames keywords == ["object"] && !fields.isEmpty then
    [.object fields .allow]
  else []

/-- The description of the items. -/
def arrayPart (keywords : Members) (item : Option Precheck) : List Precheck :=
  match item with
  | some item => if typeNames keywords == ["array"] then [.array item] else []
  | none => []

/-- The options of a keyword that lists some. -/
def optionsPart (options : List Precheck) : List Precheck :=
  if options.isEmpty then [] else [.anyOf options]

/-- All conditions at once. -/
def conjunction : List Precheck → Precheck
  | [] => .any
  | [part] => part
  | parts => .allOf parts

end Description

namespace Json

open Description

mutual

/-- The condition stated by a description; what is no object states none. -/
def described : Json → Precheck
  | .object keywords =>
      match Members.get? keywords "const" with
      | some constant => .equal constant
      | none =>
          conjunction
            (enumPart keywords ++ typePart keywords ++
              objectPart keywords (describedProperties keywords) ++
              arrayPart keywords (describedItems? keywords) ++
              optionsPart (describedOptions "anyOf" keywords) ++
              optionsPart (describedOptions "oneOf" keywords))
  | _ => .any

def describedAll : List Json → List Precheck
  | [] => []
  | value :: values => value.described :: describedAll values

/-- The descriptions of the members of an object. -/
def describedMembers : List (String × Json) → List (String × Precheck)
  | [] => []
  | (name, value) :: members =>
    (name, value.described) :: describedMembers members

/-- The descriptions in the members of a value, if it is an object. -/
def describedMembersOf : Json → List (String × Precheck)
  | .object members => describedMembers members
  | _ => []

/-- The descriptions in the items of a value, if it is an array. -/
def describedItemsOf : Json → List Precheck
  | .array items => describedAll items
  | _ => []

def describedProperties : List (String × Json) → List (String × Precheck)
  | [] => []
  | (keyword, value) :: keywords =>
      if keyword == "properties" then value.describedMembersOf
      else describedProperties keywords

/-- The description under `items`, if it is an object. -/
def describedItems? : List (String × Json) → Option Precheck
  | [] => none
  | (keyword, value) :: keywords =>
      if keyword == "items" then
        if value.members?.isSome then some value.described else none
      else describedItems? keywords

/-- The descriptions in the list under a keyword. -/
def describedOptions (name : String) : List (String × Json) → List Precheck
  | [] => []
  | (keyword, value) :: keywords =>
      if keyword == name then value.describedItemsOf
      else describedOptions name keywords

end

end Json

end JsonMatch
