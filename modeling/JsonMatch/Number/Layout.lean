import JsonMatch.Number.Shortest

/-!
# Number texts

Two texts are written for a number.  The text of a JSON value always shows that
the number is not an integer and uses an exponent for very large and very small
numbers.  The text of a bound in a message is always positional and shows an
integral number without a point.
-/

namespace JsonMatch

/-- How the digits of a number are laid out. -/
structure NumberLayout where
  /-- Exponents of the leading digit that are written positionally. -/
  positional : Int → Bool
  /-- Written after the digits of an integral number. -/
  integralEnd : String
  tie : Tie

namespace NumberLayout

/-- The text of a JSON value. -/
def json : NumberLayout :=
  ⟨fun leading => decide (-5 ≤ leading ∧ leading < 16), ".0", .toEven⟩

/-- The text of a bound in a message. -/
def message : NumberLayout :=
  ⟨fun _ => true, "", .awayFromZero⟩

def zeros (count : Nat) : String :=
  String.ofList (List.replicate count '0')

/-- Digits with the point after `point` of them. -/
def writePositional (layout : NumberLayout) (digits : List Char)
    (point : Int) : String :=
  if point ≤ 0 then
    "0." ++ zeros (-point).toNat ++ String.ofList digits
  else if point < digits.length then
    String.ofList (digits.take point.toNat) ++ "." ++
      String.ofList (digits.drop point.toNat)
  else
    String.ofList digits ++ zeros (point.toNat - digits.length) ++
      layout.integralEnd

/-- Digits with the point after the first and a power of ten. -/
def writeExponent (digits : List Char) (leading : Int) : String :=
  let fraction := digits.drop 1
  let point := if fraction.isEmpty then "" else "."
  let sign := if leading < 0 then "-" else "+"
  String.ofList (digits.take 1) ++ point ++ String.ofList fraction ++
    "e" ++ sign ++ toString leading.natAbs

def writeDecimal (layout : NumberLayout) (decimal : Decimal) : String :=
  let digits := Nat.toDigits 10 decimal.digits
  let point : Int := digits.length + decimal.exponent
  if layout.positional (point - 1) then
    layout.writePositional digits point
  else
    writeExponent digits (point - 1)

def writeFinite (layout : NumberLayout) (x : Finite64) : String :=
  let sign := if x.negative then "-" else ""
  let digits :=
    if x.isZero then "0" ++ layout.integralEnd
    else layout.writeDecimal (x.shortest layout.tie)
  sign ++ digits

def write (layout : NumberLayout) : Binary64 → String
  | .finite x => layout.writeFinite x
  | .infinite negative => if negative then "-inf" else "inf"
  | .nan => "NaN"

end NumberLayout

end JsonMatch
