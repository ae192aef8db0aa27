import JsonMatch.Value.Json
import JsonMatch.Number.Layout

/-!
# Texts and keys of values

The compact text has no blanks, members by ascending key, and no escape that the
format does not force.  Clauses and options are found by the scalar that an
input carries at a given key.  A number is found by its text, so that `1` and
`1.0` lead to different places; the two floating-point zeros share a text.
-/

namespace JsonMatch

/-- Four hexadecimal digits of a code point below `2 ^ 16`. -/
def hexQuad (code : Nat) : List Char :=
  [code / 4096 % 16, code / 256 % 16, code / 16 % 16,
   code % 16].map Nat.digitChar

/-- A character inside quotes. -/
def escapeChar (c : Char) : List Char :=
  if c = '"' then ['\\', '"']
  else if c = '\\' then ['\\', '\\']
  else if c = '\n' then ['\\', 'n']
  else if c = '\r' then ['\\', 'r']
  else if c = '\t' then ['\\', 't']
  else if c.toNat = 8 then ['\\', 'b']
  else if c.toNat = 12 then ['\\', 'f']
  else if c.toNat < 32 then '\\' :: 'u' :: hexQuad c.toNat
  else [c]

def quote (text : String) : String :=
  String.ofList ('"' :: text.toList.flatMap escapeChar ++ ['"'])

mutual

def Json.text : Json → String
  | .null => "null"
  | .bool true => "true"
  | .bool false => "false"
  | .int n => toString n
  | .float x => NumberLayout.json.writeFinite x
  | .string value => quote value
  | .array items => "[" ++ String.intercalate "," (Json.itemTexts items) ++ "]"
  | .object members =>
      "\x7b" ++ String.intercalate "," (Json.memberTexts members) ++ "\x7d"

def Json.itemTexts : List Json → List String
  | [] => []
  | item :: items => item.text :: Json.itemTexts items

def Json.memberTexts : List (String × Json) → List String
  | [] => []
  | (key, value) :: members =>
      (quote key ++ ":" ++ value.text) :: Json.memberTexts members

end

/-- What a scalar is found by. -/
inductive ScalarKey where
  | null
  | bool (value : Bool)
  | number (text : String)
  | string (value : String)
  deriving DecidableEq, Repr

/-- The key of a scalar; arrays and objects have none. -/
def Json.scalarKey? : Json → Option ScalarKey
  | .null => some .null
  | .bool value => some (.bool value)
  | .int n => some (.number (Json.int n).text)
  | .float x =>
      some (.number
        (if x.isZero then (Json.float .zero).text else (Json.float x).text))
  | .string value => some (.string value)
  | .array _ | .object _ => none

/-- A field that an input must carry with exactly this value to be accepted. -/
structure Discriminator where
  key : String
  value : Json

namespace Discriminator

/-- Chooses among the fields pinned to a value.  The first name of `priority`
that is pinned to a scalar wins, and otherwise the first field that is. -/
def pick? (fields : List (String × Json)) (priority : List String) :
    Option Discriminator :=
  let scalars := fields.filter fun field => field.2.isScalar
  let preferred := priority.findSome? fun name =>
    scalars.find? fun field => field.1 == name
  (preferred.or scalars.head?).map fun field => ⟨field.1, field.2⟩

end Discriminator

end JsonMatch
