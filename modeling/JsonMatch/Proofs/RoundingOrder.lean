import JsonMatch.Number.Rounding
import Mathlib.Algebra.Ring.Nat

/-!
# Rounding and order

A number of units is rounded to a neighbour on a grid, of which the step is a
power of two.  Every number of the format lies on that grid or below the least
power of two that uses it; so rounding never passes a number of the format, and
what is on the grid already stays where it is.
-/

namespace JsonMatch

section Quotients

variable {numerator denominator quotient : Nat}

/-- A quotient is rounded to itself or, unless it is whole, to the next
number. -/
theorem roundHalfEven_cases (numerator denominator : Nat)
    (positive : 0 < denominator) :
    roundHalfEven numerator denominator = numerator / denominator ∨
      (numerator % denominator ≠ 0 ∧
        roundHalfEven numerator denominator = numerator / denominator + 1) := by
  unfold roundHalfEven
  dsimp only
  split
  · exact .inl rfl
  · rename_i notBelow
    have remains : numerator % denominator ≠ 0 := by omega
    split
    · exact .inr ⟨remains, rfl⟩
    · split
      · exact .inl rfl
      · exact .inr ⟨remains, rfl⟩

theorem le_roundHalfEven (positive : 0 < denominator)
    (below : quotient * denominator ≤ numerator) :
    quotient ≤ roundHalfEven numerator denominator := by
  have floor : quotient ≤ numerator / denominator :=
    (Nat.le_div_iff_mul_le positive).mpr below
  rcases roundHalfEven_cases numerator denominator positive with
    same | ⟨_, next⟩ <;> omega

theorem roundHalfEven_le (positive : 0 < denominator)
    (above : numerator ≤ quotient * denominator) :
    roundHalfEven numerator denominator ≤ quotient := by
  have floor : numerator / denominator ≤ quotient :=
    Nat.div_le_of_le_mul (by rwa [Nat.mul_comm])
  rcases roundHalfEven_cases numerator denominator positive with
    same | ⟨remains, next⟩
  · omega
  · have strict : numerator / denominator ≠ quotient := by
      intro same
      have split := Nat.div_add_mod numerator denominator
      rw [same, Nat.mul_comm] at split
      omega
    omega

end Quotients

namespace Binary64

/-- The exponent of the grid on which a number of units is rounded. -/
def gridExponent (units : Nat) : Nat :=
  Nat.log2 units - 52

/-- What a number of units is rounded to, in units. -/
def roundedUnits (units : Nat) : Nat :=
  roundHalfEven units (2 ^ gridExponent units) * 2 ^ gridExponent units

section Grid

variable {units : Nat}

private theorem le_units_of_grid (coarse : 0 < gridExponent units) :
    2 ^ 52 * 2 ^ gridExponent units ≤ units := by
  have nonzero : units ≠ 0 := by
    rintro rfl
    exact absurd coarse (by decide)
  have leading : 52 + gridExponent units = Nat.log2 units := by
    unfold gridExponent at coarse ⊢
    omega
  rw [← Nat.pow_add, leading]
  exact Nat.log2_self_le nonzero

private theorem units_lt_of_grid (units : Nat) :
    units < 2 ^ 53 * 2 ^ gridExponent units := by
  have below : units < 2 ^ (Nat.log2 units + 1) := Nat.lt_log2_self
  rw [← Nat.pow_add]
  apply Nat.lt_of_lt_of_le below
  apply Nat.pow_le_pow_right (by decide)
  unfold gridExponent
  omega

private theorem magnitude_lt (x : Finite64) :
    x.magnitude < 2 ^ 52 * 2 ^ (x.exponent + 1) := by
  calc x.magnitude
    _ = x.significand * 2 ^ x.exponent := rfl
    _ < 2 ^ 53 * 2 ^ x.exponent :=
      Nat.mul_lt_mul_of_pos_right x.significand_lt (Nat.pow_pos (by decide))
    _ = 2 ^ 52 * 2 ^ (x.exponent + 1) := by
      rw [Nat.pow_succ 2 x.exponent]; omega

private theorem onGrid_or_below (x : Finite64) (units : Nat) :
    (∃ steps, x.magnitude = steps * 2 ^ gridExponent units) ∨
      (x.magnitude < 2 ^ 52 * 2 ^ gridExponent units ∧
        2 ^ 52 * 2 ^ gridExponent units ≤ units) := by
  by_cases fine : gridExponent units ≤ x.exponent
  · left
    refine ⟨x.significand * 2 ^ (x.exponent - gridExponent units), ?_⟩
    rw [Nat.mul_assoc, ← Nat.pow_add, Nat.sub_add_cancel fine]
    rfl
  · right
    have coarser : x.exponent + 1 ≤ gridExponent units := Nat.lt_of_not_le fine
    refine ⟨?_, le_units_of_grid (Nat.zero_lt_of_lt coarser)⟩
    calc x.magnitude
      _ < 2 ^ 52 * 2 ^ (x.exponent + 1) := magnitude_lt x
      _ ≤ 2 ^ 52 * 2 ^ gridExponent units :=
        Nat.mul_le_mul_left _ (Nat.pow_le_pow_right (by decide) coarser)

theorem magnitude_le_roundedUnits {x : Finite64} (below : x.magnitude ≤ units) :
    x.magnitude ≤ roundedUnits units := by
  have positive : 0 < 2 ^ gridExponent units := Nat.pow_pos (by decide)
  rcases onGrid_or_below x units with ⟨steps, onGrid⟩ | ⟨strictly, power⟩
  · rw [onGrid] at below ⊢
    exact Nat.mul_le_mul_right _ (le_roundHalfEven positive below)
  · have rounded := Nat.mul_le_mul_right (2 ^ gridExponent units)
      (le_roundHalfEven positive power)
    exact Nat.le_trans (Nat.le_of_lt strictly) rounded

theorem roundedUnits_le_magnitude {x : Finite64} (above : units ≤ x.magnitude) :
    roundedUnits units ≤ x.magnitude := by
  rcases onGrid_or_below x units with ⟨steps, onGrid⟩ | ⟨strictly, power⟩
  · rw [onGrid] at above ⊢
    exact Nat.mul_le_mul_right _
      (roundHalfEven_le (Nat.pow_pos (by decide)) above)
  · omega

theorem roundedUnits_of_onGrid {steps : Nat}
    (onGrid : units = steps * 2 ^ gridExponent units) :
    roundedUnits units = units := by
  have positive : 0 < 2 ^ gridExponent units := Nat.pow_pos (by decide)
  apply Nat.le_antisymm
  · have above := roundHalfEven_le positive (Nat.le_of_eq onGrid)
    calc roundedUnits units
      _ ≤ steps * 2 ^ gridExponent units := Nat.mul_le_mul_right _ above
      _ = units := onGrid.symm
  · have below := le_roundHalfEven positive (Nat.le_of_eq onGrid.symm)
    calc units
      _ = steps * 2 ^ gridExponent units := onGrid
      _ ≤ roundedUnits units := Nat.mul_le_mul_right _ below

private theorem ofParts_cases (negative : Bool) {significand exponent : Nat}
    (bounded : significand < 2 ^ 53)
    (normalized : exponent = 0 ∨ 2 ^ 52 ≤ significand) :
    (∃ x : Finite64, ofParts negative significand exponent = .finite x ∧
        x.negative = negative ∧ x.magnitude = significand * 2 ^ exponent) ∨
      (ofParts negative significand exponent = .infinite negative ∧
        ∀ x : Finite64, x.magnitude < significand * 2 ^ exponent) := by
  unfold ofParts
  split
  · exact .inl ⟨_, rfl, rfl, rfl⟩
  · rename_i outside
    right
    refine ⟨rfl, fun x => ?_⟩
    have large : 2046 ≤ exponent := by
      apply Nat.le_of_not_lt
      intro small
      exact outside ⟨bounded, normalized, Nat.le_of_lt_succ small⟩
    have leading : 2 ^ 52 ≤ significand := normalized.resolve_left (by omega)
    have higher : x.exponent + 1 ≤ exponent := by
      have := x.exponent_le
      omega
    calc x.magnitude
      _ < 2 ^ 52 * 2 ^ (x.exponent + 1) := magnitude_lt x
      _ ≤ significand * 2 ^ exponent :=
        Nat.mul_le_mul leading (Nat.pow_le_pow_right (by decide) higher)

/-- A number of units is rounded to a finite number, or it is beyond all of
them. -/
theorem ofUnits_cases (negative : Bool) (units : Nat) :
    (∃ x : Finite64, ofUnits negative units 1 = .finite x ∧
      x.negative = negative ∧
        x.magnitude = roundedUnits units) ∨
      (ofUnits negative units 1 = .infinite negative ∧
        ∀ x : Finite64, x.magnitude < roundedUnits units) := by
  have positive : 0 < 2 ^ gridExponent units := Nat.pow_pos (by decide)
  let significand := roundHalfEven units (2 ^ gridExponent units)
  have unfolded : ofUnits negative units 1 =
      if significand < 2 ^ 53 then
        ofParts negative significand (gridExponent units)
      else ofParts negative (significand / 2) (gridExponent units + 1) := by
    simp only [ofUnits, Nat.div_one, Nat.one_mul]
    rfl
  have atMost : significand ≤ 2 ^ 53 :=
    roundHalfEven_le positive (Nat.le_of_lt (units_lt_of_grid units))
  rw [unfolded]
  split
  · rename_i bounded
    apply ofParts_cases negative bounded
    by_cases finest : gridExponent units = 0
    · exact .inl finest
    · right
      exact le_roundHalfEven positive
        (le_units_of_grid (Nat.pos_of_ne_zero finest))
  · rename_i notBounded
    -- Rounding up has carried into a new leading bit, which moves into the
    -- exponent.
    have carried : significand = 2 ^ 53 :=
      Nat.le_antisymm atMost (Nat.not_lt.mp notBounded)
    have moved : roundedUnits units = 2 ^ 52 *
        2 ^ (gridExponent units + 1) := by
      change significand * 2 ^ gridExponent units = _
      rw [carried, Nat.pow_succ 2 (gridExponent units)]
      omega
    rw [moved, carried]
    exact ofParts_cases negative (by decide) (.inr (by decide))

end Grid

theorem finite_le_finite {x y : Finite64} :
    (finite x).le (.finite y) = true ↔ x.units ≤ y.units := by
  simp only [le, lt, sameValue, Finite64.sameValue, Bool.or_eq_true,
    decide_eq_true_eq, beq_iff_eq]
  omega

private theorem units_of_int (n : Int) : n * Finite64.unitsPerOne =
    if decide (n < 0) = true then
      -((n.natAbs * Finite64.unitsPerOne : Nat) : Int)
    else (n.natAbs * Finite64.unitsPerOne : Nat) := by
  by_cases negative : n < 0
  · rw [if_pos (decide_eq_true negative), Int.natCast_mul, ← Int.neg_mul]
    congr 1
    omega
  · rw [if_neg (by simpa using negative), Int.natCast_mul]
    congr 1
    omega

private theorem ofInt_cases (n : Int) :
    (∃ y : Finite64, ofInt n = .finite y ∧ ∀ x : Finite64,
        (x.units ≤ n * Finite64.unitsPerOne → x.units ≤ y.units) ∧
          (n * Finite64.unitsPerOne ≤ x.units → y.units ≤ x.units)) ∨
      (ofInt n = .infinite false ∧
        ∀ x : Finite64, x.units < n * Finite64.unitsPerOne) ∨
      (ofInt n = .infinite true ∧
        ∀ x : Finite64, n * Finite64.unitsPerOne < x.units) := by
  let units := n.natAbs * Finite64.unitsPerOne
  have below {x : Finite64} : x.magnitude ≤ units →
      x.magnitude ≤ roundedUnits units :=
    magnitude_le_roundedUnits
  have above {x : Finite64} : units ≤ x.magnitude →
      roundedUnits units ≤ x.magnitude :=
    roundedUnits_le_magnitude
  rw [units_of_int, show ofInt n = ofUnits (decide (n < 0)) units 1 from rfl]
  rcases ofUnits_cases (decide (n < 0)) units with
    ⟨y, rounded, sign, magnitude⟩ | ⟨beyond, greatest⟩
  · left
    refine ⟨y, rounded, fun x => ?_⟩
    have lower := below (x := x)
    have upper := above (x := x)
    simp only [Finite64.units, sign, magnitude]
    cases decide (n < 0) <;> cases x.negative <;>
      simp only [if_true, Bool.false_eq_true, if_false] <;> omega
  · right
    -- What is beyond all numbers when it is rounded was so before.
    have past (x : Finite64) : x.magnitude < units := by
      apply Nat.lt_of_not_le
      intro reached
      exact Nat.not_lt.mpr (above reached) (greatest x)
    rw [beyond]
    cases decide (n < 0) with
    | false =>
        refine .inl ⟨rfl, fun x => ?_⟩
        have := past x
        simp only [Finite64.units, Bool.false_eq_true, if_false]
        split <;> omega
    | true =>
        refine .inr ⟨rfl, fun x => ?_⟩
        have := past x
        simp only [Finite64.units, if_true]
        split <;> omega

/-- An integer is not below a number after rounding if it was not before, or if
it is rounded to this number. -/
theorem finite_le_ofInt {x : Finite64} {n : Int} :
    (finite x).le (ofInt n) = true ↔
      x.units ≤ n * Finite64.unitsPerOne ∨
      (ofInt n).sameValue (.finite x) = true := by
  rcases ofInt_cases n with ⟨y, rounded, between⟩ | ⟨beyond, greatest⟩ |
    ⟨beyond, least⟩
  · have ordered := between x
    rw [rounded, finite_le_finite]
    simp only [sameValue, Finite64.sameValue, beq_iff_eq]
    omega
  · rw [beyond]
    exact iff_of_true rfl (.inl (Int.le_of_lt (greatest x)))
  · rw [beyond]
    exact iff_of_false Bool.false_ne_true
      (not_or.mpr ⟨Int.not_le.mpr (least x), Bool.false_ne_true⟩)

/-- An integer is not above a number after rounding if it was not before, or if
it is rounded to this number. -/
theorem ofInt_le_finite {x : Finite64} {n : Int} :
    (ofInt n).le (.finite x) = true ↔
      n * Finite64.unitsPerOne ≤ x.units ∨
      (ofInt n).sameValue (.finite x) = true := by
  rcases ofInt_cases n with ⟨y, rounded, between⟩ | ⟨beyond, greatest⟩ |
    ⟨beyond, least⟩
  · have ordered := between x
    rw [rounded, finite_le_finite]
    simp only [sameValue, Finite64.sameValue, beq_iff_eq]
    omega
  · rw [beyond]
    exact iff_of_false Bool.false_ne_true
      (not_or.mpr ⟨Int.not_le.mpr (greatest x), Bool.false_ne_true⟩)
  · rw [beyond]
    exact iff_of_true rfl (.inl (Int.le_of_lt (least x)))

private theorem mul_pow_le {factor exponent : Nat} (small : factor ≤ 2 ^ 53) :
    factor * 2 ^ exponent ≤ 2 ^ 52 * 2 ^ (exponent + 1) := by
  have scaled := Nat.mul_le_mul_right (2 ^ exponent) small
  rw [Nat.pow_succ 2 exponent]
  omega

private theorem onGrid_of_le {factor : Nat} (small : factor ≤ 2 ^ 53)
    (exponent : Nat) :
    ∃ steps, factor * 2 ^ exponent =
      steps * 2 ^ gridExponent (factor * 2 ^ exponent) := by
  by_cases fine : gridExponent (factor * 2 ^ exponent) ≤ exponent
  · refine ⟨factor * 2 ^ (exponent - gridExponent (factor * 2 ^ exponent)), ?_⟩
    rw [Nat.mul_assoc, ← Nat.pow_add, Nat.sub_add_cancel fine]
  · -- Only the greatest of them reaches a coarser grid, as its least number.
    have coarser : exponent + 1 ≤ gridExponent (factor * 2 ^ exponent) :=
      Nat.lt_of_not_le fine
    have power := le_units_of_grid (Nat.zero_lt_of_lt coarser)
    refine ⟨2 ^ 52, Nat.le_antisymm ?_ power⟩
    exact Nat.le_trans (mul_pow_le small)
      (Nat.mul_le_mul_left _ (Nat.pow_le_pow_right (by decide) coarser))

theorem ofInt_of_le {n : Int} (small : n.natAbs ≤ 2 ^ 53) :
    ∃ y : Finite64, ofInt n = .finite y ∧
      y.units = n * Finite64.unitsPerOne := by
  obtain ⟨exponent, fits, unit⟩ : ∃ exponent, exponent + 1 ≤ 2045 ∧
      Finite64.unitsPerOne = 2 ^ exponent := by
    have fits : 1074 + 1 ≤ 2045 := by decide
    unfold Finite64.unitsPerOne
    generalize 1074 = exponent at fits ⊢
    exact ⟨exponent, fits, rfl⟩
  obtain ⟨steps, onGrid⟩ := onGrid_of_le small exponent
  have exact := roundedUnits_of_onGrid onGrid
  rw [units_of_int,
    show ofInt n = ofUnits (decide (n < 0)) (n.natAbs * Finite64.unitsPerOne) 1
      from rfl,
    unit]
  rcases ofUnits_cases (decide (n < 0)) (n.natAbs * 2 ^ exponent) with
    ⟨y, rounded, sign, magnitude⟩ | ⟨_, greatest⟩
  · refine ⟨y, rounded, ?_⟩
    rw [Finite64.units, sign, magnitude, exact]
  · -- The greatest binade is far beyond these integers.
    obtain ⟨x, leading, higher⟩ : ∃ x : Finite64,
        x.significand = 2 ^ 52 ∧ exponent + 1 ≤ x.exponent :=
      ⟨⟨false, 2 ^ 52, 2045, by decide, .inr (by decide), by decide⟩, rfl, fits⟩
    have beyond := greatest x
    rw [exact, Finite64.magnitude, leading] at beyond
    have reached : n.natAbs * 2 ^ exponent ≤ 2 ^ 52 * 2 ^ x.exponent := by
      calc n.natAbs * 2 ^ exponent
        _ ≤ 2 ^ 52 * 2 ^ (exponent + 1) := mul_pow_le small
        _ ≤ 2 ^ 52 * 2 ^ x.exponent :=
          Nat.mul_le_mul_left _ (Nat.pow_le_pow_right (by decide) higher)
    exact absurd beyond (Nat.not_lt.mpr reached)

end Binary64

end JsonMatch
