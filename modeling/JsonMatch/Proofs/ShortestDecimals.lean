import JsonMatch.Number.Shortest
import JsonMatch.Proofs.ExactEquality
import JsonMatch.Proofs.ScalarKeys
import Mathlib.Algebra.Order.Field.Power
import Mathlib.Algebra.Order.Field.Rat
import Mathlib.Data.Rat.Cast.Order
import Mathlib.Tactic.FieldSimp
import Mathlib.Tactic.Linarith
import Mathlib.Tactic.Ring

/-!
# Shortest decimals tell numbers apart

What is rounded to a finite number is an interval, which has its ends when the
significand is even.  Neighbouring intervals share at most an end, and of two
neighbouring significands one is odd.  So nothing is rounded to two absolute
values, and the decimals written for different ones have different values.
-/

namespace JsonMatch

/-- The number that a decimal denotes. -/
def Decimal.value (decimal : Decimal) : ℚ :=
  decimal.digits * 10 ^ decimal.exponent

namespace Finite64

/-- Whether a number, given in quarters of a unit, is rounded to an absolute
value. -/
def Encloses (x : Finite64) (place : ℚ) : Prop :=
  if x.significand % 2 = 0 then (x.lowerEnd : ℚ) ≤ place ∧ place ≤ x.upperEnd
  else (x.lowerEnd : ℚ) < place ∧ place < x.upperEnd

private theorem place_eq (decimal : Decimal) :
    ((decimal.digits * (gridStep decimal.exponent).1 : Nat) : ℚ) =
      decimal.value * (4 * unitsPerOne) * (gridStep decimal.exponent).2 := by
  have split : (10 : ℚ) ^ decimal.exponent.toNat =
      10 ^ decimal.exponent * 10 ^ (-decimal.exponent).toNat := by
    rw [← zpow_natCast, ← zpow_natCast, ← zpow_add₀ (by norm_num)]
    congr 1
    omega
  simp only [gridStep, Decimal.value, Nat.pow_eq, Nat.cast_mul, Nat.cast_pow,
    Nat.cast_ofNat]
  rw [split]
  generalize (unitsPerOne : ℚ) = unit
  ring

theorem readsBack_iff {x : Finite64} {decimal : Decimal} :
    x.readsBack decimal = true ↔
      x.Encloses (decimal.value * (4 * unitsPerOne)) := by
  have positive : (0 : ℚ) < (gridStep decimal.exponent).2 := by
    simp only [gridStep, Nat.pow_eq, Nat.cast_pow, Nat.cast_ofNat]
    positivity
  have place := place_eq decimal
  simp only [readsBack, Encloses]
  generalize decimal.value * (4 * unitsPerOne) = value at place ⊢
  generalize (gridStep decimal.exponent).2 = scale at positive place ⊢
  generalize decimal.digits * (gridStep decimal.exponent).1 = steps at place ⊢
  split
  · rw [Bool.and_eq_true, decide_eq_true_eq, decide_eq_true_eq,
      ← Nat.cast_le (α := ℚ),
      ← Nat.cast_le (α := ℚ), place, Nat.cast_mul, Nat.cast_mul,
      mul_le_mul_iff_left₀ positive, mul_le_mul_iff_left₀ positive]
  · rw [Bool.and_eq_true, decide_eq_true_eq, decide_eq_true_eq,
      ← Nat.cast_lt (α := ℚ),
      ← Nat.cast_lt (α := ℚ), place, Nat.cast_mul, Nat.cast_mul,
      mul_lt_mul_iff_left₀ positive, mul_lt_mul_iff_left₀ positive]

/-- Whether the interval of a number ends below another one's, or where it
begins with an end that one of the two does not have. -/
private def EndsBefore (x y : Finite64) : Prop :=
  x.upperEnd < y.lowerEnd ∨ x.upperEnd = y.lowerEnd ∧
    (x.significand % 2 = 1 ∨ y.significand % 2 = 1)

private theorem endsBefore_of_exponent_lt {x y : Finite64}
    (lower : x.exponent < y.exponent) : EndsBefore x y := by
  have bounded := x.significand_lt
  obtain ⟨more, exponents⟩ : ∃ more, y.exponent = x.exponent + (more + 1) :=
    ⟨y.exponent - x.exponent - 1, by omega⟩
  have lowest : 2 ^ 54 - 1 ≤ 4 * y.significand -
      (if y.narrowBelow then 1 else 2) := by
    have normalized := y.normalized
    simp only [narrowBelow, Bool.and_eq_true, beq_iff_eq, decide_eq_true_eq]
    split <;> omega
  have scaled : (2 ^ 54 - 1) * 2 * 2 ^ x.exponent ≤ y.lowerEnd := by
    have widened : 1 ≤ 2 ^ more := Nat.pow_pos (by decide)
    rw [lowerEnd, Nat.pow_eq, exponents, Nat.pow_add, Nat.pow_succ,
      Nat.mul_comm (2 ^ x.exponent), ← Nat.mul_assoc]
    exact Nat.mul_le_mul_right _
      (Nat.mul_le_mul lowest (Nat.mul_le_mul_right 2 widened))
  by_cases last : x.significand = 2 ^ 53 - 1
  · have touches : x.upperEnd = (2 ^ 54 - 1) * 2 * 2 ^ x.exponent := by
      rw [upperEnd, last]
      rfl
    rcases Nat.lt_or_eq_of_le scaled with apart | touching
    · exact .inl (touches ▸ apart)
    · exact .inr ⟨touches.trans touching, .inl (by omega)⟩
  · left
    refine Nat.lt_of_lt_of_le ?_ scaled
    exact Nat.mul_lt_mul_of_pos_right (by omega) (Nat.pow_pos (by decide))

private theorem endsBefore_of_significand_lt {x y : Finite64}
    (same : x.exponent = y.exponent) (smaller : x.significand < y.significand) :
    EndsBefore x y := by
  have bounded := y.significand_lt
  have positive : 0 < 2 ^ y.exponent := Nat.pow_pos (by decide)
  have wide : y.narrowBelow = false := by
    have normalized := x.normalized
    rw [Bool.eq_false_iff]
    simp only [narrowBelow, ne_eq, Bool.and_eq_true,
      beq_iff_eq, decide_eq_true_eq]
    omega
  have lower : y.lowerEnd = (4 * y.significand - 2) * 2 ^ y.exponent := by
    rw [lowerEnd, wide]
    rfl
  have upper : x.upperEnd = (4 * x.significand + 2) * 2 ^ y.exponent := by
    rw [upperEnd, same]
    rfl
  rw [EndsBefore, lower, upper]
  by_cases next : y.significand = x.significand + 1
  · right
    refine ⟨?_, by omega⟩
    congr 1
    omega
  · left
    exact Nat.mul_lt_mul_of_pos_right (by omega) positive

private theorem endsBefore_of_magnitude_lt {x y : Finite64}
    (smaller : x.magnitude < y.magnitude) : EndsBefore x y := by
  rcases Nat.lt_trichotomy x.exponent y.exponent with lower | same | higher
  · exact endsBefore_of_exponent_lt lower
  · apply endsBefore_of_significand_lt same
    simp only [magnitude, same] at smaller
    exact Nat.lt_of_mul_lt_mul_right smaller
  · exact absurd (magnitude_lt_of_exponent_lt higher) (Nat.lt_asymm smaller)

private theorem Encloses.ends {x : Finite64} {place : ℚ}
    (encloses : x.Encloses place) :
    (x.lowerEnd ≤ place ∧ place ≤ x.upperEnd) ∧
      (x.significand % 2 = 1 → x.lowerEnd < place ∧ place < x.upperEnd) := by
  rw [Encloses] at encloses
  split at encloses
  · exact ⟨encloses, fun odd => by omega⟩
  · exact ⟨⟨encloses.1.le, encloses.2.le⟩, fun _ => encloses⟩

private theorem not_encloses_of_endsBefore {x y : Finite64} {place : ℚ}
    (before : EndsBefore x y) (inX : x.Encloses place) :
    ¬ y.Encloses place := by
  intro inY
  obtain ⟨⟨_, belowX⟩, strictX⟩ := inX.ends
  obtain ⟨⟨aboveY, _⟩, strictY⟩ := inY.ends
  rcases before with apart | ⟨touching, oddX | oddY⟩
  · have apart : (x.upperEnd : ℚ) < y.lowerEnd := Nat.cast_lt.mpr apart
    exact absurd (belowX.trans_lt (apart.trans_le aboveY)) (lt_irrefl place)
  · rw [← touching] at aboveY
    exact absurd ((strictX oddX).2.trans_le aboveY) (lt_irrefl place)
  · rw [touching] at belowX
    exact absurd (belowX.trans_lt (strictY oddY).1) (lt_irrefl place)

/-- No number is rounded to two absolute values. -/
theorem Encloses.magnitude_eq {x y : Finite64} {place : ℚ}
    (inX : x.Encloses place) (inY : y.Encloses place) :
    x.magnitude = y.magnitude := by
  rcases Nat.lt_trichotomy x.magnitude y.magnitude with smaller | same | greater
  · exact absurd inY
      (not_encloses_of_endsBefore (endsBefore_of_magnitude_lt smaller) inX)
  · exact same
  · exact absurd inX
      (not_encloses_of_endsBefore (endsBefore_of_magnitude_lt greater) inY)

theorem encloses_quarters (x : Finite64) : x.Encloses x.quarters := by
  by_cases zero : x.significand = 0
  · simp [Encloses, lowerEnd, upperEnd, quarters, zero]
  · have below : x.lowerEnd < x.quarters := by
      refine Nat.mul_lt_mul_of_pos_right ?_ (Nat.pow_pos (by decide))
      split <;> omega
    have above : x.quarters < x.upperEnd :=
      Nat.mul_lt_mul_of_pos_right (by omega) (Nat.pow_pos (by decide))
    have below : (x.lowerEnd : ℚ) < x.quarters := Nat.cast_lt.mpr below
    have above : (x.quarters : ℚ) < x.upperEnd := Nat.cast_lt.mpr above
    rw [Encloses]
    split
    · exact ⟨below.le, above.le⟩
    · exact ⟨below, above⟩

private theorem value_exactDecimal (x : Finite64) :
    x.exactDecimal.value * (4 * unitsPerOne) = x.quarters := by
  have exponents : 1076 = 1074 + 2 := rfl
  have negated : (-1076 : Int) = -((1076 : Nat) : Int) := rfl
  unfold Decimal.value exactDecimal unitsPerOne
  rw [negated]
  generalize 1076 = raised at exponents ⊢
  generalize 1074 = lowered at exponents ⊢
  have ten : (10 : ℚ) ^ raised = 5 ^ raised * 2 ^ lowered * 4 := by
    rw [show (10 : ℚ) = 5 * 2 by norm_num, mul_pow, exponents,
      pow_add 2 lowered 2]
    ring
  rw [zpow_neg, zpow_natCast, ten, Nat.pow_eq, Nat.pow_eq]
  push_cast
  field_simp

private theorem readsBack_of_onGrid? {tie : Tie} {x : Finite64} {exponent : Int}
    {decimal : Decimal} (found : x.onGrid? tie exponent = some decimal) :
    x.readsBack decimal = true := by
  dsimp only [onGrid?] at found
  split at found
  · next below _ =>
    cases found
    exact below
  · next _ above =>
    cases found
    exact above
  · cases found
  · next below above =>
    split at found
    · cases found
      exact below
    · split at found
      · cases found
        exact above
      · cases tie with
        | awayFromZero =>
            cases found
            exact above
        | toEven =>
            dsimp only at found
            split at found
            · cases found
              exact below
            · cases found
              exact above

/-- What is written for a number is rounded to its absolute value. -/
theorem encloses_shortest (tie : Tie) (x : Finite64) :
    x.Encloses ((x.shortest tie).value * (4 * unitsPerOne)) := by
  suffices reached : ∀ grids exponent,
      x.Encloses ((x.firstOnGrid tie grids exponent).value *
        (4 * unitsPerOne)) from
    reached 20 x.coarsestGrid
  intro grids
  induction grids with
  | zero =>
      intro exponent
      rw [firstOnGrid, value_exactDecimal]
      exact x.encloses_quarters
  | succ grids induction =>
      intro exponent
      rw [firstOnGrid]
      cases found : x.onGrid? tie exponent with
      | none => exact induction (exponent - 1)
      | some decimal => exact readsBack_iff.mp (readsBack_of_onGrid? found)

end Finite64

end JsonMatch
