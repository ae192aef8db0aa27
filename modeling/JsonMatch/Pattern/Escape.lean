import JsonMatch.Pattern.Flags

/-!
# Escapes

What a backslash and the characters after it stand for: a character, a class or
a place.
-/

namespace JsonMatch

/-- What an escape stands for. -/
inductive Escape where
  | char (c : Char)
  | members (set : CharSet)
  | place (place : Place)

namespace Escape

/-- The control character of a letter. -/
def control? : Char → Option Char
  | 'a' => some (Char.ofNat 7)
  | 't' => some '\t'
  | 'n' => some '\n'
  | 'v' => some (Char.ofNat 11)
  | 'f' => some (Char.ofNat 12)
  | 'r' => some '\r'
  | _ => none

/-- Whether an escape of the character stands for the character itself: an ASCII
character that is no letter, no digit and no angle bracket. -/
def isItself (c : Char) : Bool :=
  c.toNat < 0x80 && !c.isAlphanum && c != '<' && c != '>'

/-! ## Characters by number -/

def hexDigit? (c : Char) : Option Nat :=
  if c.isDigit then some (c.toNat - '0'.toNat)
  else if 'a' ≤ c ∧ c ≤ 'f' then some (c.toNat - 'a'.toNat + 10)
  else if 'A' ≤ c ∧ c ≤ 'F' then some (c.toNat - 'A'.toNat + 10)
  else none

def hexValue (digits : List Char) : Nat :=
  digits.foldl (fun value c => value * 16 + (hexDigit? c).getD 0) 0

def ofNumber? (code : Nat) : Option Char :=
  if code.isValidChar then some (Char.ofNat code) else none

/-- Reads a character given by its number: in braces, or as the fixed count of
digits of its letter. -/
def numbered? (flags : Flags) (letter : Char) (input : List Char) :
    Option (Char × List Char) := do
  let isHex (c : Char) : Bool := (hexDigit? c).isSome
  match flags.next input with
  | '\x7b' :: rest =>
      let (digits, rest) := flags.takeAll isHex (flags.next rest)
      let '\x7d' :: rest := rest | none
      if digits.isEmpty then none
      else return (← ofNumber? (hexValue digits), flags.next rest)
  | rest =>
      let count := if letter = 'x' then 2 else if letter = 'u' then 4 else 8
      let (digits, rest) := flags.takeKind isHex count rest
      if digits.length < count then none
      else
        let c ← ofNumber? (hexValue digits)
        if letter = 'x' ∧ 0x7F < c.toNat ∧ ¬ flags.unicode then none
        else return (c, rest)

/-! ## Places -/

def namedPlace? : String → Option WordPlace
  | "start" => some .first
  | "end" => some .last
  | "start-half" => some .mayStart
  | "end-half" => some .mayEnd
  | _ => none

/-- Reads the rest of an edge of a word: the name of a place in braces says
which edge; braces with anything but a name are left to be read as a count. -/
def edge? (flags : Flags) (input : List Char) :
    Option (Escape × List Char) := do
  let edge := Escape.place (flags.wordPlace .edge)
  match input with
  | '\x7b' :: rest =>
      let isNameChar (c : Char) : Bool := c.isAlpha || c == '-'
      let rest := flags.next rest
      if rest.isEmpty then none
      let (name, after) := flags.takeAll isNameChar rest
      if name.isEmpty then return (edge, input)
      else
        let '\x7d' :: after := after | none
        return (.place (flags.wordPlace (← namedPlace? (String.ofList name))),
          after)
  | input => return (edge, input)

/-- Reads an escape after its backslash. -/
def read? (flags : Flags) : List Char → Option (Escape × List Char)
  | [] => none
  | c :: rest =>
      match flags.namedClass? c, control? c with
      | some found, _ => do return (.members (← found), rest)
      | none, some control => some (.char control, rest)
      | none, none =>
          match c with
          | 'x' | 'u' | 'U' => do
              let (c, rest) ← numbered? flags c rest
              return (.char c, rest)
          | 'A' => some (.place .textStart, rest)
          | 'z' => some (.place .textEnd, rest)
          | 'b' => edge? flags rest
          | 'B' => some (.place (flags.wordPlace .noEdge), rest)
          | '<' => some (.place (flags.wordPlace .first), rest)
          | '>' => some (.place (flags.wordPlace .last), rest)
          | c => if isItself c then some (.char c, rest) else none

end Escape

end JsonMatch
