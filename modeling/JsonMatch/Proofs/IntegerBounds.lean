import JsonMatch.Proofs.Containers
import JsonMatch.Proofs.ExactEquality
import JsonMatch.Proofs.RoundingOrder
import Mathlib.Algebra.Order.Field.Rat
import Mathlib.Data.Rat.Cast.Order

/-!
# Bounds of integers

A bound is a floating-point number, and an integer is rounded before it is
compared with it.  Rounding never passes the bound, so no integer within it is
refused; but an integer beyond the bound is accepted when it is rounded to the
bound itself, and its message is then contradicted.  Up to `2 ^ 53` no integer
is rounded to another number.
-/

namespace JsonMatch

namespace Finite64

/-- The number that is denoted. -/
def value (x : Finite64) : ℚ :=
  x.units / unitsPerOne

theorem value_le_iff {x : Finite64} {n : Int} :
    x.value ≤ n ↔ x.units ≤ n * unitsPerOne := by
  have positive := unitsPerOne_pos
  rw [value]
  generalize unitsPerOne = unit at positive ⊢
  rw [div_le_iff₀ (Nat.cast_pos.mpr positive)]
  norm_cast

theorem le_value_iff {x : Finite64} {n : Int} :
    n ≤ x.value ↔ n * unitsPerOne ≤ x.units := by
  have positive := unitsPerOne_pos
  rw [value]
  generalize unitsPerOne = unit at positive ⊢
  rw [le_div_iff₀ (Nat.cast_pos.mpr positive)]
  norm_cast

end Finite64

namespace Schema

/-- Integers that pass a rule. -/
def integerWith (rule : Rule Id) : Schema Id :=
  .refined (.primitive .integer) rule none

/-- An integer is accepted as it is, or refused with the text of the rule. -/
theorem validate_integerWith (rule : Rule Id) (n : Int) :
    (integerWith rule).validate (.int n) = (.ready
      (if (rule.holds (.int n)).run then .success (.int n)
        else .refusal rule.code rule.describe) : Answer Id) := by
  have immediate : (integerWith rule).Immediate :=
    .refined (.primitive .integer)
  rw [immediate.validate_eq]
  congr 1
  have walk : ((integerWith rule).check .refuse).on (.int n) =
      Check.decided (rule.holds (.int n)).run
        (.int n) rule.code rule.describe := by
    rw [integerWith, check, Check.refined_on, check, Check.primitive_on]
    rfl
  cases holds : (rule.holds (.int n)).run with
  | true =>
      apply Outcome.accepted?_eq_some.mp
      rw [accepted?_outcome, integerWith, verdict_refined, verdict_primitive]
      simp [Primitive.accepts, holds]
  | false =>
      rw [holds] at walk
      exact immediate.outcome_of_rejection walk

private theorem validate_integerWith_eq_success {rule : Rule Id}
    {n : Int} {passes : Bool} (holds : (rule.holds (.int n)).run = passes) :
    (integerWith rule).validate (.int n) =
      (.ready (.success (.int n)) : Answer Id) ↔
      passes = true := by
  rw [validate_integerWith, holds]
  cases passes with
  | true => exact iff_of_true rfl rfl
  | false => exact iff_of_false nofun Bool.false_ne_true

private theorem validate_integerWith_of_ne {rule : Rule Id} {n : Int}
    (refused : (integerWith rule).validate (.int n) ≠
      (.ready (.success (.int n)) : Answer Id)) :
    (integerWith rule).validate (.int n) =
      (.ready (.refusal rule.code rule.describe) : Answer Id) := by
  have fails := mt (validate_integerWith_eq_success rfl).mpr refused
  rw [validate_integerWith, if_neg fails]

/-- Bounds of integers hold up to rounding: what is within a bound is accepted,
and what is beyond it only if it is rounded to the bound.  So up to `2 ^ 53`
they hold exactly, and what is refused is told the bound. -/
theorem integer_bounds_hold (n : Int) (bound : Finite64) :
    let least := integerWith (.minimum (.finite bound))
    let most := integerWith (.maximum (.finite bound))
    let text := NumberLayout.message.write (.finite bound)
    let rounds := (Binary64.ofInt n).sameValue (.finite bound) = true
    let accepted : Answer Id := .ready (.success (.int n))
    (least.validate (.int n) = accepted ↔ bound.value ≤ n ∨ rounds) ∧
      (most.validate (.int n) = accepted ↔ n ≤ bound.value ∨ rounds) ∧
      (least.validate (.int n) ≠ accepted → least.validate (.int n) =
        (.ready (.refusal "minimum" ("must be >= " ++ text)) : Answer Id)) ∧
      (most.validate (.int n) ≠ accepted → most.validate (.int n) =
        (.ready (.refusal "maximum" ("must be <= " ++ text)) : Answer Id)) ∧
      (n.natAbs ≤ 2 ^ 53 →
        (least.validate (.int n) = accepted ↔ bound.value ≤ n) ∧
          (most.validate (.int n) = accepted ↔ n ≤ bound.value)) := by
  intro least most text rounds accepted
  have leastHolds :
      ((Rule.minimum (.finite bound) : Rule Id).holds (.int n)).run =
      (Binary64.finite bound).le (.ofInt n) := by
    rw [Rule.holds, Json.number?, Option.any_some]
    rfl
  have mostHolds :
      ((Rule.maximum (.finite bound) : Rule Id).holds (.int n)).run =
      (Binary64.ofInt n).le (.finite bound) := by
    rw [Rule.holds, Json.number?, Option.any_some]
    rfl
  have leastAccepts : least.validate (.int n) = accepted ↔
      bound.value ≤ n ∨ rounds := by
    rw [validate_integerWith_eq_success leastHolds, Binary64.finite_le_ofInt,
      Finite64.value_le_iff]
  have mostAccepts : most.validate (.int n) = accepted ↔
      n ≤ bound.value ∨ rounds := by
    rw [validate_integerWith_eq_success mostHolds, Binary64.ofInt_le_finite,
      Finite64.le_value_iff]
  refine ⟨leastAccepts, mostAccepts, validate_integerWith_of_ne,
    validate_integerWith_of_ne, ?_⟩
  intro small
  obtain ⟨y, exact, units⟩ := Binary64.ofInt_of_le small
  have same : rounds → bound.units = n * Finite64.unitsPerOne := by
    intro rounds
    have rounds : (Binary64.ofInt n).sameValue (.finite bound) = true := rounds
    rw [exact] at rounds
    exact (eq_of_beq rounds).symm.trans units
  rw [leastAccepts, mostAccepts]
  constructor
  · exact or_iff_left_of_imp fun rounds =>
      Finite64.value_le_iff.mpr (same rounds).le
  · exact or_iff_left_of_imp fun rounds =>
      Finite64.le_value_iff.mpr (same rounds).ge

/-- The bound `2 ^ 53`: the integer before it is too small and the one two after
it too great. -/
theorem integer_bounds_hold_power :
    let bound : Finite64 :=
      ⟨false, 2 ^ 52, 1075, by decide, .inr (by decide), by decide⟩
    (integerWith (.minimum (.finite bound))).validate (.int 9007199254740991) =
        (.ready (.refusal "minimum" "must be >= 9007199254740992") :
          Answer Id) ∧
      (integerWith (.maximum (.finite bound))).validate
        (.int 9007199254740994) =
        (.ready (.refusal "maximum" "must be <= 9007199254740992") :
          Answer Id) ∧
      (integerWith (.maximum (.finite bound))).validate
        (.int 9007199254740991) =
        (.ready (.success (.int 9007199254740991)) : Answer Id) := by
  intro bound
  have text : NumberLayout.message.write (.finite bound) =
      "9007199254740992" := by
    decide +kernel
  obtain ⟨leastAccepts, -, leastRefuses, -, exact⟩ :=
    integer_bounds_hold 9007199254740991 bound
  obtain ⟨-, mostAccepts, -, mostRefuses, -⟩ :=
    integer_bounds_hold 9007199254740994 bound
  rw [text] at leastRefuses mostRefuses
  refine ⟨leastRefuses (mt leastAccepts.mp ?_),
    mostRefuses (mt mostAccepts.mp ?_), (exact (by decide)).2.mpr ?_⟩
  · rw [Finite64.value_le_iff]
    decide +kernel
  · rw [Finite64.le_value_iff]
    decide +kernel
  · rw [Finite64.le_value_iff]
    decide +kernel

/-- The integer after `2 ^ 53` is rounded to it, and passes it as a greatest
value; the one before `2 ^ 53 + 4` passes that as a least value. -/
theorem not_integer_bounds_hold :
    let most : Finite64 :=
      ⟨false, 2 ^ 52, 1075, by decide, .inr (by decide), by decide⟩
    let least : Finite64 :=
      ⟨false, 2 ^ 52 + 2, 1075, by decide, .inr (by decide), by decide⟩
    ((integerWith (.maximum (.finite most))).validate (.int 9007199254740993) =
        (.ready (.success (.int 9007199254740993)) : Answer Id) ∧
      ¬ (9007199254740993 : Int) ≤ most.value) ∧
    ((integerWith (.minimum (.finite least))).validate (.int 9007199254740995) =
        (.ready (.success (.int 9007199254740995)) : Answer Id) ∧
      ¬ least.value ≤ (9007199254740995 : Int)) := by
  refine ⟨⟨?_, ?_⟩, ?_, ?_⟩
  · exact (validate_integerWith_eq_success rfl).mpr (by decide +kernel)
  · rw [Finite64.le_value_iff]
    decide +kernel
  · exact (validate_integerWith_eq_success rfl).mpr (by decide +kernel)
  · rw [Finite64.value_le_iff]
    decide +kernel

end Schema

end JsonMatch
