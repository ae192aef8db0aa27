/-!
# Binary64 numbers

A finite number is a sign, a significand and an exponent, counted in units of
`2 ^ (-1074)`, the least positive number of the format.  Every finite number is
a whole number of units, so that comparing two of them, or one of them with a
quotient of integers, is integer arithmetic and nothing is rounded on the way.

Each numeric value has one representation, zero apart: the significand of a
number with a positive exponent has its leading bit set.
-/

namespace JsonMatch

/-- A finite number: `significand * 2 ^ exponent` units, with a sign.  The
significand has at most 53 bits, and all of them when the exponent is
positive. -/
structure Finite64 where
  negative : Bool
  significand : Nat
  exponent : Nat
  significand_lt : significand < 0x20000000000000
  normalized : exponent = 0 ∨ 0x10000000000000 ≤ significand
  exponent_le : exponent ≤ 2045
  deriving DecidableEq

namespace Finite64

/-- Units in the number one. -/
def unitsPerOne : Nat := Nat.pow 2 1074

def magnitude (x : Finite64) : Nat :=
  x.significand * Nat.pow 2 x.exponent

/-- The value in units. -/
def units (x : Finite64) : Int :=
  if x.negative then -x.magnitude else x.magnitude

def zero : Finite64 :=
  ⟨false, 0, 0, by decide, .inl rfl, by decide⟩

/-- Both zeros, and nothing else. -/
def isZero (x : Finite64) : Bool :=
  x.significand == 0

/-- Equality of values: the two zeros are equal. -/
def sameValue (x y : Finite64) : Bool :=
  x.units == y.units

end Finite64

/-- Any number of the format. -/
inductive Binary64 where
  | finite (value : Finite64)
  | infinite (negative : Bool)
  | nan
  deriving DecidableEq

namespace Binary64

/-- Strict order; nothing is below or above `nan`. -/
def lt : Binary64 → Binary64 → Bool
  | .finite x, .finite y => x.units < y.units
  | .finite _, .infinite negative => !negative
  | .infinite negative, .finite _ => negative
  | .infinite x, .infinite y => x && !y
  | .nan, _ => false
  | _, .nan => false

/-- Equality of values: the two zeros are equal, and `nan` equals nothing. -/
def sameValue : Binary64 → Binary64 → Bool
  | .finite x, .finite y => x.sameValue y
  | .infinite x, .infinite y => x == y
  | _, _ => false

def le (x y : Binary64) : Bool :=
  x.lt y || x.sameValue y

end Binary64

end JsonMatch
