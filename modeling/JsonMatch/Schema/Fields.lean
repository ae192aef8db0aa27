import JsonMatch.Schema.Tree

/-!
# Declared fields

Fields are declared in order.  A field that is required and held to a single
scalar pins every accepted object at that key; dispatch and the options of
variants are found by such fields, also below refinements and transforms.
-/

namespace JsonMatch

namespace Field

variable {σ : Type}

/-- Declares a field; a name declared before keeps its place and gets the new
definition. -/
def declare (field : Field σ) : List (Field σ) → List (Field σ)
  | [] => [field]
  | other :: fields =>
      if other.name = field.name then field :: fields
      else other :: declare field fields

def declareAll (fields : List (Field σ)) : List (Field σ) :=
  fields.foldl (fun declared field => field.declare declared) []

def declares (fields : List (Field σ)) (key : String) : Bool :=
  fields.any fun field => field.name == key

variable {m : Type → Type}

/-- The scalar that a field is pinned to. -/
def pinned? (field : Field (Schema m)) : Option Json :=
  match field.presence, field.schema with
  | .required, .literal value => if value.isScalar then some value else none
  | _, _ => none

end Field

namespace Schema

variable {m : Type → Type}

/-- The fields and the treatment of other keys of an object schema, seen
through refinements and transforms. -/
def object? :
    Schema m → Option (List (Field (Schema m)) × OtherKeys (Schema m))
  | .object fields unknown => some (fields, unknown)
  | .refined inner _ _ | .transform inner _ | .asyncRefined inner _ _ =>
      inner.object?
  | _ => none

def pinnedAt? (fields : List (Field (Schema m))) (key : String) : Option Json :=
  (fields.find? fun field => field.name == key).bind Field.pinned?

/-- All keys pinned to a scalar, in order. -/
def pinnedFields (fields : List (Field (Schema m))) : List (String × Json) :=
  fields.filterMap fun field =>
    field.pinned?.map fun value => (field.name, value)

/-- The scalar that an object schema pins a key to. -/
def tag? (schema : Schema m) (key : String) : Option Json :=
  schema.object?.bind fun object => pinnedAt? object.1 key

end Schema

end JsonMatch
