import JsonMatch.Value.Equality
import JsonMatch.Value.Text

/-!
# Equal scalars and their keys

Equal scalars are found by one key.  Equal floating-point numbers are one number
or the two zeros, which share a text.
-/

namespace JsonMatch

namespace Finite64

theorem magnitude_eq_zero {x : Finite64} :
    x.magnitude = 0 ↔ x.isZero = true := by
  have positive : 0 < Nat.pow 2 x.exponent := Nat.pow_pos (by decide)
  simp only [magnitude, isZero, beq_iff_eq, Nat.mul_eq_zero]
  omega

theorem magnitude_lt_of_exponent_lt {x y : Finite64}
    (lower : x.exponent < y.exponent) :
    x.magnitude < y.magnitude := by
  have leading : 0x10000000000000 ≤ y.significand := by
    have normalized := y.normalized
    omega
  obtain ⟨more, exponents⟩ : ∃ more, y.exponent = x.exponent + (more + 1) :=
    ⟨y.exponent - x.exponent - 1, by omega⟩
  have split : y.magnitude = (y.significand * 2 ^ more * 2) *
      2 ^ x.exponent := by
    change y.significand * 2 ^ y.exponent = _
    rw [exponents, Nat.pow_add, Nat.pow_succ]
    simp only [Nat.mul_assoc, Nat.mul_left_comm, Nat.mul_comm]
  have scaled : y.significand * 1 ≤ y.significand * 2 ^ more :=
    Nat.mul_le_mul_left _ (Nat.pow_pos (by decide))
  have bounded := x.significand_lt
  rw [split]
  exact Nat.mul_lt_mul_of_pos_right (by omega) (Nat.pow_pos (by decide))

private theorem exponent_le_of_magnitude {x y : Finite64}
    (same : x.magnitude = y.magnitude) : y.exponent ≤ x.exponent :=
  Nat.le_of_not_lt fun higher =>
    Nat.ne_of_lt (magnitude_lt_of_exponent_lt higher) same

/-- A value other than zero has one representation. -/
theorem eq_of_units {x y : Finite64} (same : x.units = y.units) :
    x = y ∨ (x.isZero = true ∧ y.isZero = true) := by
  have magnitudes : x.magnitude = y.magnitude := by
    simp only [units] at same
    split at same <;> split at same <;> omega
  by_cases zero : x.magnitude = 0
  · exact .inr ⟨magnitude_eq_zero.mp zero,
      magnitude_eq_zero.mp (magnitudes ▸ zero)⟩
  · have exponents : x.exponent = y.exponent :=
      Nat.le_antisymm (exponent_le_of_magnitude magnitudes.symm)
        (exponent_le_of_magnitude magnitudes)
    have significands : x.significand = y.significand := by
      simp only [magnitude, exponents] at magnitudes
      exact Nat.eq_of_mul_eq_mul_right (Nat.pow_pos (by decide)) magnitudes
    have signs : x.negative = y.negative := by
      simp only [units] at same
      cases left : x.negative <;> cases right : y.negative <;>
        simp [left, right] at same ⊢ <;>
        omega
    left
    clear same magnitudes zero
    obtain ⟨negative, significand, exponent, _, _, _⟩ := x
    obtain ⟨otherNegative, otherSignificand, otherExponent, _, _, _⟩ := y
    dsimp only at exponents significands signs
    subst exponents significands signs
    rfl

end Finite64

namespace Json

theorem isSome_scalarKey? (value : Json) :
    value.scalarKey?.isSome = value.isScalar := by
  cases value <;> rfl

private theorem scalarKey?_float {x y : Finite64} (same : x.units = y.units) :
    (float x).scalarKey? = (float y).scalarKey? := by
  rcases Finite64.eq_of_units same with rfl | ⟨left, right⟩
  · rfl
  · rw [scalarKey?, scalarKey?, if_pos left, if_pos right]

/-- Equal values are found by one key, or by none. -/
theorem scalarKey?_eq_of_same {x y : Json} (same : (x == y) = true) :
    x.scalarKey? = y.scalarKey? := by
  change x.same y = true at same
  cases x <;> cases y <;>
    simp only [Json.same, beq_iff_eq, Bool.false_eq_true] at same
  case float.float x y =>
    simp only [Finite64.sameValue, beq_iff_eq] at same
    exact scalarKey?_float same
  all_goals first
    | rfl
    | (subst same; rfl)

end Json

end JsonMatch
