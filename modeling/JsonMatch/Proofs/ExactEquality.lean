import JsonMatch.Value.Equality

/-!
# Equality by exact value

Numbers stand for whole numbers of units, integers among them, so that their
values can be compared without rounding.  The equality of descriptions rounds
integers, but it holds wherever the values are exactly equal: such a number is
rounded to itself.
-/

namespace JsonMatch

theorem Finite64.unitsPerOne_pos : 0 < unitsPerOne := by
  unfold unitsPerOne
  generalize 1074 = exponent
  exact Nat.pow_pos (by decide)

namespace Binary64

theorem roundHalfEven_mul (quotient : Nat) {denominator : Nat}
    (positive : 0 < denominator) :
    roundHalfEven (quotient * denominator) denominator = quotient := by
  have exact : quotient * denominator / denominator = quotient :=
    Nat.mul_div_cancel quotient positive
  have whole : quotient * denominator % denominator = 0 := Nat.mul_mod_left _ _
  simp only [roundHalfEven, exact, whole]
  rw [if_pos (by omega)]

private theorem log2_magnitude (x : Finite64) :
    Nat.log2 (x.magnitude / 1) - 52 = x.exponent := by
  have bounded := x.significand_lt
  rw [Nat.div_one]
  rcases x.normalized with least | leading
  · by_cases zero : x.significand = 0
    · simp [Finite64.magnitude, zero, least]
    · have small : Nat.log2 x.significand < 53 := (Nat.log2_lt zero).mpr bounded
      have magnitude : x.magnitude = x.significand := by
        rw [Finite64.magnitude, least]
        exact Nat.mul_one _
      rw [magnitude, least]
      omega
  · have positive : 0 < 2 ^ x.exponent := Nat.pow_pos (by decide)
    have lower : 2 ^ (52 + x.exponent) ≤ x.magnitude := by
      rw [Nat.pow_add]
      exact Nat.mul_le_mul_right _ leading
    have upper : x.magnitude < 2 ^ (52 + x.exponent + 1) := by
      rw [Nat.add_right_comm, Nat.pow_add]
      exact Nat.mul_lt_mul_of_pos_right bounded positive
    have nonzero : x.magnitude ≠ 0 := by
      have below : 0 < 2 ^ (52 + x.exponent) := Nat.pow_pos (by decide)
      omega
    rw [(Nat.log2_eq_iff nonzero).mpr ⟨lower, upper⟩]
    omega

theorem ofUnits_magnitude (negative : Bool) (x : Finite64) :
    ofUnits negative x.magnitude 1 = .finite { x with negative } := by
  have rounded : roundHalfEven x.magnitude (1 * Nat.pow 2 x.exponent) =
      x.significand := by
    rw [Nat.one_mul]
    exact roundHalfEven_mul x.significand (Nat.pow_pos (by decide))
  rw [ofUnits, log2_magnitude, rounded, if_pos x.significand_lt, ofParts,
    dif_pos ⟨x.significand_lt, x.normalized, x.exponent_le⟩]

theorem ofInt_exact {n : Int} {x : Finite64}
    (same : n * Finite64.unitsPerOne = x.units) :
    ∃ y : Finite64, ofInt n = .finite y ∧ y.units = x.units := by
  have magnitude : n.natAbs * Finite64.unitsPerOne = x.magnitude := by
    have absolute := congrArg Int.natAbs same
    rw [Int.natAbs_mul, Int.natAbs_natCast] at absolute
    rw [absolute, Finite64.units]
    split
    · rw [Int.natAbs_neg, Int.natAbs_natCast]
    · exact Int.natAbs_natCast _
  refine ⟨{ x with negative := decide (n < 0) }, ?_, ?_⟩
  · rw [ofInt, magnitude, ofUnits_magnitude]
  · have positive : 0 < (Finite64.unitsPerOne : Int) :=
      Int.natCast_pos.mpr Finite64.unitsPerOne_pos
    have units : x.units =
        if x.negative then -(x.magnitude : Int) else x.magnitude := rfl
    change (if decide (n < 0) = true then -(x.magnitude : Int)
      else x.magnitude) =
      x.units
    by_cases negative : n < 0
    · have below := Int.mul_neg_of_neg_of_pos negative positive
      rw [same, units] at below
      rw [if_pos (decide_eq_true negative), units]
      split at below <;> rename_i sign
      · rw [if_pos sign]
      · omega
    · have above :=
        Int.mul_nonneg (Int.not_lt.mp negative) (Int.le_of_lt positive)
      rw [same, units] at above
      rw [if_neg (by simp [negative]), units]
      split at above <;> rename_i sign
      · rw [if_pos sign]
        omega
      · rw [if_neg sign]

end Binary64

namespace Json

/-- The value of a number in units of the least positive floating-point
number. -/
def units? : Json → Option Int
  | .int n => some (n * Finite64.unitsPerOne)
  | .float x => some x.units
  | _ => none

/-- Whether two values are numbers of the same value. -/
def equalNumbers (x y : Json) : Bool :=
  match x.units?, y.units? with
  | some x, some y => x == y
  | _, _ => false

mutual

/-- Equality of values, numbers by their exact values and objects by their
members. -/
def equals : Json → Json → Bool
  | .null, .null => true
  | .bool x, .bool y => x == y
  | .int x, y => equalNumbers (.int x) y
  | .float x, y => equalNumbers (.float x) y
  | .string x, .string y => x == y
  | .array xs, .array ys => equalItems xs ys
  | .object xs, .object ys => xs.length == ys.length && equalMembers xs ys
  | _, _ => false

def equalItems : List Json → List Json → Bool
  | [], [] => true
  | x :: xs, y :: ys => x.equals y && equalItems xs ys
  | _, _ => false

/-- Whether every member on the left has an equal one on the right. -/
def equalMembers : List (String × Json) → Members → Bool
  | [], _ => true
  | (key, x) :: xs, ys => (ys.get? key).any x.equals && equalMembers xs ys

end

theorem units?_eq_some {x : Json} {units : Int}
    (number : x.units? = some units) :
    (∃ n, x = .int n ∧ n * Finite64.unitsPerOne = units) ∨
      ∃ y, x = .float y ∧ y.units = units := by
  cases x with
  | int n => exact .inl ⟨n, rfl, Option.some.inj number⟩
  | float y => exact .inr ⟨y, rfl, Option.some.inj number⟩
  | _ => cases number

private theorem sameNumber_of_equalNumbers {x y : Json}
    (equal : x.equalNumbers y = true) :
    x.sameNumber y = true := by
  obtain ⟨units, left, right⟩ : ∃ units, x.units? = some units ∧
    y.units? = some units := by
    unfold equalNumbers at equal
    split at equal
    · rename_i first second left right
      exact ⟨second, beq_iff_eq.mp equal ▸ left, right⟩
    · cases equal
  rcases units?_eq_some left with ⟨n, rfl, units_n⟩ | ⟨x, rfl, units_x⟩
  · rcases units?_eq_some right with ⟨k, rfl, units_k⟩ | ⟨y, rfl, units_y⟩
    · have same : n = k := Int.eq_of_mul_eq_mul_right
        (Int.natCast_ne_zero.mpr (Nat.ne_of_gt Finite64.unitsPerOne_pos))
        (units_n.trans units_k.symm)
      simp [sameNumber, Json.same, same]
    · obtain ⟨rounded, exact, rounds⟩ :=
        Binary64.ofInt_exact (units_n.trans units_y.symm)
      simp [sameNumber, number?, exact, Binary64.sameValue, Finite64.sameValue,
        rounds]
  · rcases units?_eq_some right with ⟨k, rfl, units_k⟩ | ⟨y, rfl, units_y⟩
    · obtain ⟨rounded, exact, rounds⟩ :=
        Binary64.ofInt_exact (units_k.trans units_x.symm)
      simp [sameNumber, number?, exact, Binary64.sameValue, Finite64.sameValue,
        rounds]
    · simp [sameNumber, Json.same, Finite64.sameValue, units_x, units_y]

mutual

/-- Values that are exactly equal are equal in a description. -/
theorem sameByNumber_of_equals : ∀ x y : Json, x.equals y = true →
    x.sameByNumber y = true
  | .null, y, equal => by cases y <;> simp_all [equals, sameByNumber, Json.same]
  | .bool x, y, equal => by
    cases y <;> simp_all [equals, sameByNumber, Json.same]
  | .int x, y, equal => sameNumber_of_equalNumbers equal
  | .float x, y, equal => sameNumber_of_equalNumbers equal
  | .string x, y, equal => by
    cases y <;> simp_all [equals, sameByNumber, Json.same]
  | .array xs, .array ys, equal => sameItemsByNumber_of_equalItems xs ys equal
  | .object xs, .object ys, equal => by
      rw [equals, Bool.and_eq_true] at equal
      rw [sameByNumber, Bool.and_eq_true]
      exact ⟨equal.1, membersFoundByNumber_of_equalMembers xs ys equal.2⟩

theorem sameItemsByNumber_of_equalItems : ∀ xs ys : List Json,
    equalItems xs ys = true → sameItemsByNumber xs ys = true
  | [], [], _ => rfl
  | x :: xs, y :: ys, equal => by
      rw [equalItems, Bool.and_eq_true] at equal
      rw [sameItemsByNumber, Bool.and_eq_true]
      exact ⟨sameByNumber_of_equals x y equal.1,
        sameItemsByNumber_of_equalItems xs ys equal.2⟩

theorem membersFoundByNumber_of_equalMembers :
    ∀ (xs : List (String × Json)) (ys : Members),
      equalMembers xs ys = true → membersFoundByNumber xs ys = true
  | [], _, _ => rfl
  | (key, x) :: xs, ys, equal => by
      rw [equalMembers, Bool.and_eq_true] at equal
      rw [membersFoundByNumber, Bool.and_eq_true]
      refine ⟨?_, membersFoundByNumber_of_equalMembers xs ys equal.2⟩
      cases found : ys.get? key with
      | none =>
          rw [found] at equal
          cases equal.1
      | some y =>
          rw [found] at equal
          exact sameByNumber_of_equals x y equal.1

end

end Json

end JsonMatch
