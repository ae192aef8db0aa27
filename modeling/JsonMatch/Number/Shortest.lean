import JsonMatch.Number.Binary64

/-!
# Shortest decimals

The decimal written for a finite number is the one with the fewest digits among
those that round back to the number, and of these the nearest to it.

All comparisons are made in quarters of a unit.  There the ends of the interval
of reals that round to a number are whole, also below a power of two, where the
neighbour is half as far away as the one above.
-/

namespace JsonMatch

/-- `digits * 10 ^ exponent`. -/
structure Decimal where
  digits : Nat
  exponent : Int
  deriving DecidableEq, Repr

/-- Which of two equally near decimals is taken. -/
inductive Tie where
  | toEven
  | awayFromZero
  deriving DecidableEq, Repr

namespace Finite64

/-- The absolute value in quarters of a unit. -/
def quarters (x : Finite64) : Nat :=
  4 * x.significand * Nat.pow 2 x.exponent

/-- Whether the gap below the number is half the gap above it. -/
def narrowBelow (x : Finite64) : Bool :=
  x.significand == 0x10000000000000 && decide (0 < x.exponent)

/-- Lower end of the interval that rounds to the number, in quarters. -/
def lowerEnd (x : Finite64) : Nat :=
  (4 * x.significand - (if x.narrowBelow then 1 else 2)) * Nat.pow 2 x.exponent

/-- Upper end of the interval that rounds to the number, in quarters. -/
def upperEnd (x : Finite64) : Nat :=
  (4 * x.significand + 2) * Nat.pow 2 x.exponent

/-- A step of the grid `10 ^ exponent` as a quotient of quarters. -/
def gridStep (exponent : Int) : Nat × Nat :=
  (Nat.pow 10 exponent.toNat * (4 * unitsPerOne), Nat.pow 10 (-exponent).toNat)

/-- Whether a decimal lies among the reals that round to the number.  The ends
of the interval belong to it when the significand is even. -/
def readsBack (x : Finite64) (decimal : Decimal) : Bool :=
  let (step, scale) := gridStep decimal.exponent
  let place := decimal.digits * step
  let lower := x.lowerEnd * scale
  let upper := x.upperEnd * scale
  if x.significand % 2 = 0 then
    lower ≤ place && place ≤ upper
  else
    lower < place && place < upper

/-- The point of the grid `10 ^ exponent` to write for the number, if one of
its two neighbours on that grid reads back. -/
def onGrid? (tie : Tie) (x : Finite64) (exponent : Int) : Option Decimal :=
  let (step, scale) := gridStep exponent
  let value := x.quarters * scale
  let below : Decimal := ⟨value / step, exponent⟩
  let above : Decimal := ⟨value / step + 1, exponent⟩
  match x.readsBack below, x.readsBack above with
  | true, false => some below
  | false, true => some above
  | false, false => none
  | true, true =>
      let middle := (2 * below.digits + 1) * step
      if 2 * value < middle then some below
      else if middle < 2 * value then some above
      else match tie with
        | .awayFromZero => some above
        | .toEven => if below.digits % 2 = 0 then some below else some above

/-- The value written out in full. -/
def exactDecimal (x : Finite64) : Decimal :=
  ⟨x.quarters * Nat.pow 5 1076, -1076⟩

/-- Tries ever finer grids, and writes the value in full when none is left. -/
def firstOnGrid (tie : Tie) (x : Finite64) : Nat → Int → Decimal
  | 0, _ => x.exactDecimal
  | grids + 1, exponent =>
      match x.onGrid? tie exponent with
      | some decimal => decimal
      | none => firstOnGrid tie x grids (exponent - 1)

/-- A power of ten above the absolute value: `0.30103` bounds the decimal
logarithm of two from above. -/
def coarsestGrid (x : Finite64) : Int :=
  (((Nat.log2 x.quarters : Int) - 1076 + 1) * 30103).fdiv 100000 + 1

/-- The shortest decimal that reads back, for a number other than zero.
Seventeen digits always suffice. -/
def shortest (tie : Tie) (x : Finite64) : Decimal :=
  x.firstOnGrid tie 20 x.coarsestGrid

end Finite64

end JsonMatch
