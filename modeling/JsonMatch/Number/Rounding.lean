import JsonMatch.Number.Binary64

/-!
# Rounding to binary64

A quotient of natural numbers or an integer is rounded to the nearest number of
the format; a value halfway between two of them goes to the one with the even
significand, and a value beyond the greatest finite number becomes infinite.

A decimal is its digits, rounded, multiplied or divided by a power of ten, which
is rounded too, and then rounded again.  Up to `2 ^ 53` and `10 ^ 22` only the
last rounding changes anything, so that the result is the nearest number.
-/

namespace JsonMatch

/-- The quotient rounded to the nearest whole number, halves to even. -/
def roundHalfEven (numerator denominator : Nat) : Nat :=
  let quotient := numerator / denominator
  let remainder := numerator % denominator
  if 2 * remainder < denominator then quotient
  else if denominator < 2 * remainder then quotient + 1
  else if quotient % 2 = 0 then quotient
  else quotient + 1

namespace Binary64

/-- The finite number with these parts; parts out of range stand for a value
too large for the format. -/
def ofParts (negative : Bool) (significand exponent : Nat) : Binary64 :=
  if range : significand < 0x20000000000000 ∧
      (exponent = 0 ∨ 0x10000000000000 ≤ significand) ∧ exponent ≤ 2045 then
    .finite ⟨negative, significand, exponent, range.1, range.2.1, range.2.2⟩
  else
    .infinite negative

/-- Rounds `numerator / denominator` units.  The exponent leaves 53 bits
before the point; rounding up to `2 ^ 53` moves one bit into it. -/
def ofUnits (negative : Bool) (numerator denominator : Nat) : Binary64 :=
  let exponent := Nat.log2 (numerator / denominator) - 52
  let significand := roundHalfEven numerator (denominator * Nat.pow 2 exponent)
  if significand < 0x20000000000000 then
    ofParts negative significand exponent
  else
    ofParts negative (significand / 2) (exponent + 1)

def ofInt (n : Int) : Binary64 :=
  ofUnits (decide (n < 0)) (n.natAbs * Finite64.unitsPerOne) 1

/-- The absolute value of a finite number in units. -/
def magnitude : Binary64 → Nat
  | .finite x => x.magnitude
  | _ => 0

/-- The exponent of the greatest finite power of ten. -/
def maxPower : Nat := 308

/-- The units of a power of ten, rounded. -/
def powerUnits (exponent : Nat) : Nat :=
  (ofUnits false (Nat.pow 10 exponent * Finite64.unitsPerOne) 1).magnitude

def timesPower (negative : Bool) (units exponent : Nat) : Binary64 :=
  if units = 0 then ofParts negative 0 0
  else if maxPower < exponent then .infinite negative
  else ofUnits negative (units * powerUnits exponent) Finite64.unitsPerOne

def dividePower (negative : Bool) (units exponent : Nat) : Binary64 :=
  ofUnits negative (units * Finite64.unitsPerOne) (powerUnits exponent)

/-- Divides by the greatest finite power of ten as often as told, but not once
nothing is left. -/
def divideRounds : Nat → Nat → Nat
  | 0, units => units
  | rounds + 1, units =>
      if units = 0 then 0
      else divideRounds rounds (dividePower false units maxPower).magnitude

/-- The number that `digits * 10 ^ exponent` is read as.  A power of ten that is
not finite is divided by in several rounds. -/
def ofDecimal (negative : Bool) (digits : Nat) (exponent : Int) : Binary64 :=
  let units := (ofUnits false (digits * Finite64.unitsPerOne) 1).magnitude
  match exponent with
  | .ofNat raised => timesPower negative units raised
  | .negSucc lowered =>
      let rounds := lowered / maxPower
      dividePower negative (divideRounds rounds units)
        (lowered + 1 - rounds * maxPower)

end Binary64

end JsonMatch
