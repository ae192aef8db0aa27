import JsonMatch.Value.Json

/-!
# Reading a value

The text of a value is read from the left.  A number without point and exponent
is an integer when it fits 64 bits, with or without a sign; every other number,
and `-0`, is a floating-point number, of whose digits as many count as fit 64
bits.  A member that occurs twice has its last value.
-/

namespace JsonMatch.Reading

def skipBlanks (input : List Char) : List Char :=
  input.dropWhile fun c => c = ' ' || c = '\n' || c = '\r' || c = '\t'

def word? : List Char → List Char → Option (List Char)
  | [], rest => some rest
  | c :: expected, d :: rest => if c = d then word? expected rest else none
  | _ :: _, [] => none

def hexDigit? (c : Char) : Option Nat :=
  if c.isDigit then some (c.toNat - '0'.toNat)
  else if 'a' ≤ c ∧ c ≤ 'f' then some (c.toNat - 'a'.toNat + 10)
  else if 'A' ≤ c ∧ c ≤ 'F' then some (c.toNat - 'A'.toNat + 10)
  else none

def hexQuad? : List Char → Option (Nat × List Char)
  | a :: b :: c :: d :: rest => do
      let a ← hexDigit? a
      let b ← hexDigit? b
      let c ← hexDigit? c
      let d ← hexDigit? d
      return (((a * 16 + b) * 16 + c) * 16 + d, rest)
  | _ => none

/-- Reads the digits after a `u` escape.  A high surrogate must be followed by
the escape of a low one, and the two stand for one character. -/
def unicodeEscape? (input : List Char) : Option (Char × List Char) := do
  let (high, rest) ← hexQuad? input
  if 0xD800 ≤ high ∧ high < 0xDC00 then
    let rest ← word? ['\\', 'u'] rest
    let (low, rest) ← hexQuad? rest
    if 0xDC00 ≤ low ∧ low < 0xE000 then
      return (Char.ofNat (0x10000 + (high - 0xD800) * 1024 + (low - 0xDC00)),
        rest)
    else none
  else if 0xDC00 ≤ high ∧ high < 0xE000 then none
  else return (Char.ofNat high, rest)

/-- The character of a one-letter escape. -/
def escape? : Char → Option Char
  | '"' => some '"'
  | '\\' => some '\\'
  | '/' => some '/'
  | 'b' => some (Char.ofNat 8)
  | 'f' => some (Char.ofNat 12)
  | 'n' => some '\n'
  | 'r' => some '\r'
  | 't' => some '\t'
  | _ => none

/-- Reads the characters of a string up to its closing quote.  Every step takes
a character, so that a limit of the length of the text is never reached. -/
def stringRest? : Nat → List Char → List Char → Option (String × List Char)
  | 0, _, _ => none
  | _ + 1, _, [] => none
  | limit + 1, seen, c :: rest =>
      if c = '"' then some (String.ofList seen.reverse, rest)
      else if c = '\\' then
        match rest with
        | 'u' :: rest => do
            let (c, rest) ← unicodeEscape? rest
            stringRest? limit (c :: seen) rest
        | c :: rest => do
            let c ← escape? c
            stringRest? limit (c :: seen) rest
        | [] => none
      else if c.toNat < 32 then none
      else stringRest? limit (c :: seen) rest

def digitsValue (digits : List Char) : Nat :=
  digits.foldl (fun value c => value * 10 + (c.toNat - '0'.toNat)) 0

/-- Puts digits behind those of a value as long as the result has 64 bits, and
counts the digits that are left. -/
def digitsOnto (value : Nat) : List Char → Nat × Nat
  | [] => (value, 0)
  | c :: rest =>
      let longer := value * 10 + (c.toNat - '0'.toNat)
      if longer < 0x10000000000000000 then digitsOnto longer rest
      else (value, rest.length + 1)

/-- The leading digits and the rest; there has to be one. -/
def digits? (input : List Char) : Option (List Char × List Char) :=
  let digits := input.takeWhile Char.isDigit
  if digits.isEmpty then none else some (digits, input.dropWhile Char.isDigit)

/-- Reads the digits after a point, if there is one. -/
def fraction? : List Char → Option (Option (List Char) × List Char)
  | '.' :: rest => do
      let (digits, rest) ← digits? rest
      return (some digits, rest)
  | rest => some (none, rest)

/-- Reads a power of ten, if there is one. -/
def exponent? : List Char → Option (Option Int × List Char)
  | c :: rest =>
      if c = 'e' || c = 'E' then do
        let (negative, rest) := match rest with
          | '-' :: rest => (true, rest)
          | '+' :: rest => (false, rest)
          | rest => (false, rest)
        let (digits, rest) ← digits? rest
        let value : Int := digitsValue digits
        return (some (if negative then -value else value), rest)
      else some (none, c :: rest)
  | [] => some (none, [])

/-- The integer with this sign and absolute value, if it has 64 bits; zero has
no negative. -/
def integer? (negative : Bool) (magnitude : Nat) : Option Json :=
  if negative then
    if 0 < magnitude ∧
      magnitude ≤ 0x8000000000000000 then some (.int (-magnitude)) else none
  else if magnitude < 0x10000000000000000 then some (.int magnitude) else none

/-- Reads a number; one beyond the finite ones is refused. -/
def number? (input : List Char) : Option (Json × List Char) := do
  let (negative, rest) := match input with
    | '-' :: rest => (true, rest)
    | rest => (false, rest)
  let (whole, rest) ← digits? rest
  if whole.length > 1 ∧ whole.head? = some '0' then none
  let (fraction, rest) ← fraction? rest
  let (exponent, rest) ← exponent? rest
  let asFloat : Option Json :=
    let fraction := fraction.getD []
    let (value, above) := digitsOnto 0 whole
    let (value, below) := digitsOnto value fraction
    let shift : Int := exponent.getD 0 + above + below - fraction.length
    match Binary64.ofDecimal negative value shift with
    | .finite x => some (.float x)
    | _ => none
  let value ←
    if fraction.isNone ∧ exponent.isNone then
      (integer? negative (digitsValue whole)).or asFloat
    else asFloat
  return (value, rest)

mutual

/-- Reads a value.  The limit bounds the number of steps; a step takes at least
one character. -/
def value? : Nat → List Char → Option (Json × List Char)
  | 0, _ => none
  | limit + 1, input =>
      match skipBlanks input with
      | [] => none
      | '"' :: rest => do
          let (text, rest) ← stringRest? (rest.length + 1) [] rest
          return (.string text, rest)
      | '[' :: rest =>
          match skipBlanks rest with
          | ']' :: rest => some (.array [], rest)
          | rest => do
              let (items, rest) ← items? limit rest
              return (.array items, rest)
      | '\x7b' :: rest =>
          match skipBlanks rest with
          | '\x7d' :: rest => some (.object [], rest)
          | rest => do
              let (members, rest) ← members? limit rest
              return (.object (Members.ofList members), rest)
      | 'n' :: rest => do return (.null, ← word? ['u', 'l', 'l'] rest)
      | 't' :: rest => do return (.bool true, ← word? ['r', 'u', 'e'] rest)
      | 'f' :: rest =>
        do return (.bool false, ← word? ['a', 'l', 's', 'e'] rest)
      | input => number? input

/-- Reads the items of an array up to its end. -/
def items? : Nat → List Char → Option (List Json × List Char)
  | 0, _ => none
  | limit + 1, input => do
      let (item, rest) ← value? limit input
      match skipBlanks rest with
      | ',' :: rest =>
          let (items, rest) ← items? limit rest
          return (item :: items, rest)
      | ']' :: rest => return ([item], rest)
      | _ => none

/-- Reads the members of an object up to its end. -/
def members? : Nat → List Char → Option (List (String × Json) × List Char)
  | 0, _ => none
  | limit + 1, input => do
      let '"' :: rest := skipBlanks input | none
      let (key, rest) ← stringRest? (rest.length + 1) [] rest
      let ':' :: rest := skipBlanks rest | none
      let (value, rest) ← value? limit rest
      match skipBlanks rest with
      | ',' :: rest =>
          let (members, rest) ← members? limit rest
          return ((key, value) :: members, rest)
      | '\x7d' :: rest => return ([(key, value)], rest)
      | _ => none

end

end JsonMatch.Reading

namespace JsonMatch

/-- Reads a text that holds one value and nothing else. -/
def Json.read? (text : String) : Option Json := do
  let input := text.toList
  let (value, rest) ← Reading.value? (input.length + 1) input
  if (Reading.skipBlanks rest).isEmpty then some value else none

end JsonMatch
