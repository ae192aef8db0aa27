import JsonMatch.Number.Layout
import JsonMatch.Pattern.Reading
import JsonMatch.Schema.Outcome
import JsonMatch.Value.Equality
import JsonMatch.Value.Text

/-!
# Schemas

A schema is a tree that says which values it accepts and what it makes of them.
Its structure can be inspected without running it, except below a `custom` node,
which holds any validating function.
-/

namespace JsonMatch

/-- Kinds of values. -/
inductive Primitive where
  | any
  | null
  | boolean
  | number
  | integer
  | string
  deriving DecidableEq, Repr

namespace Primitive

/-- Whether a value is of the kind.  A floating-point number is no integer,
also when its value is integral. -/
def accepts : Primitive → Json → Bool
  | .any, _ => true
  | .null, .null => true
  | .boolean, .bool _ => true
  | .number, .int _ | .number, .float _ => true
  | .integer, .int _ => true
  | .string, .string _ => true
  | _, _ => false

def name : Primitive → String
  | .any => "any"
  | .null => "null"
  | .boolean => "boolean"
  | .number => "number"
  | .integer => "integer"
  | .string => "string"

end Primitive

/-- What happens when a declared field is absent. -/
inductive Presence where
  | required
  | optional
  | default (value : Json)

/-- A declared field of an object, `σ` being what its value is held to. -/
structure Field (σ : Type) where
  name : String
  presence : Presence
  schema : σ

/-- What happens to keys that are not declared. -/
inductive OtherKeys (σ : Type) where
  | allow
  | deny
  | validate (schema : σ)

/-- A check of an accepted value. -/
inductive Rule (m : Type → Type) where
  | minLength (least : Nat)
  | maxLength (most : Nat)
  | pattern (expected : Pattern)
  | minimum (least : Binary64)
  | maximum (most : Binary64)
  | custom (test : Json → m Bool)

namespace Rule

variable {m : Type → Type} [Monad m]

/-- Whether a value passes.  Lengths are those of strings, in characters, and
of arrays; a value without length, text or number fails the rules on them. -/
def holds (rule : Rule m) (value : Json) : m Bool :=
  match rule with
  | .minLength least => pure (value.length?.any (least ≤ ·))
  | .maxLength most => pure (value.length?.any (· ≤ most))
  | .pattern expected => pure (value.string?.any expected.matchesIn)
  | .minimum least => pure (value.number?.any least.le)
  | .maximum most => pure (value.number?.any (·.le most))
  | .custom test => test value

/-- The code of the issue raised. -/
def code : Rule m → String
  | .minLength _ => "min_length"
  | .maxLength _ => "max_length"
  | .pattern _ => "pattern"
  | .minimum _ => "minimum"
  | .maximum _ => "maximum"
  | .custom _ => "custom"

/-- The message of the issue raised, unless another one is given. -/
def describe : Rule m → String
  | .minLength least => "length must be at least " ++ toString least
  | .maxLength most => "length must be at most " ++ toString most
  | .pattern expected => "must match pattern '" ++ expected.source ++ "'"
  | .minimum least => "must be >= " ++ NumberLayout.message.write least
  | .maximum most => "must be <= " ++ NumberLayout.message.write most
  | .custom _ => "failed custom check"

end Rule

/-- A schema whose callbacks run in `m`. -/
inductive Schema (m : Type → Type) where
  /-- Exactly this value. -/
  | literal (value : Json)
  | primitive (kind : Primitive)
  | object (fields : List (Field (Schema m))) (unknown : OtherKeys (Schema m))
  /-- One item for each schema, and after them any number for `rest`. -/
  | tuple (items : List (Schema m)) (rest : Option (Schema m))
  | array (item : Schema m)
  /-- The first option that accepts wins. -/
  | union (options : List (Schema m))
  /-- A union whose options are told apart by the value of a key. -/
  | variant (key : String) (options : List (Schema m))
  /-- A rule on the output of a schema, with a message of its own or the
  rule's. -/
  | refined (inner : Schema m) (rule : Rule m) (message : Option String)
  | transform (inner : Schema m) (map : Json → m Json)
  /-- A check on the output of a schema that has to be awaited. -/
  | asyncRefined (inner : Schema m) (test : Json → m Bool) (message : String)
  /-- Any validator; what it accepts cannot be seen. -/
  | custom (validate : Json → m (Answer m))

namespace Schema

variable {m : Type → Type}

def kind : Schema m → String
  | .literal _ => "literal"
  | .primitive kind => kind.name
  | .object _ _ => "object"
  | .tuple _ _ => "tuple"
  | .array _ => "array"
  | .union _ => "union"
  | .variant _ _ => "variant"
  | .refined _ _ _ => "refined"
  | .transform _ _ => "transform"
  | .asyncRefined _ _ _ => "async"
  | .custom _ => "custom"

/-- The outermost node as it is shown when a schema is printed. -/
def text : Schema m → String
  | .literal value => "Schema(Literal(" ++ value.text ++ "))"
  | .primitive kind => "Schema(Primitive(" ++ kind.name ++ "))"
  | schema => "Schema(Shape::" ++ schema.kind ++ ")"

/-- Whether an array of this length fits the positions of a tuple. -/
def tupleLengthFits (positions : Nat) (hasRest : Bool) (length : Nat) : Bool :=
  if hasRest then positions ≤ length else length == positions

def positive [Monad m] (inner : Schema m) : Schema m :=
  .refined inner
    (.custom fun value => pure (value.number?.any (Binary64.finite .zero).lt))
    (some "must be positive")

end Schema

end JsonMatch
