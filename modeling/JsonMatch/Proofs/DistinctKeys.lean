import JsonMatch.Proofs.NumberTexts

/-!
# Different scalars have different keys

The text of a number shows whether it is an integer, and then its value: the
digits of an integer are its own, and those of a floating-point number are
rounded to it alone.  So two scalars are found by one key exactly when they are
equal.
-/

namespace JsonMatch

open NumberText

/-- A text behind its sign. -/
def signed (negative : Bool) (text : List Char) : List Char :=
  if negative then '-' :: text else text

private theorem ne_minus_of_digit {text : List Char}
    (unsigned : text.head?.any Char.isDigit = true) (rest : List Char) :
    text ≠ '-' :: rest := by
  rintro rfl
  cases unsigned

private theorem signed_inj {negative other : Bool} {left right : List Char}
    (leftUnsigned : left.head?.any Char.isDigit = true)
    (rightUnsigned : right.head?.any Char.isDigit = true)
    (same : signed negative left = signed other right) :
    negative = other ∧ left = right := by
  cases negative <;> cases other
  · exact ⟨rfl, same⟩
  · exact absurd same (ne_minus_of_digit leftUnsigned right)
  · exact absurd same.symm (ne_minus_of_digit rightUnsigned left)
  · exact ⟨rfl, List.tail_eq_of_cons_eq same⟩

private theorem mem_signed {mark : Char} (other : mark ≠ '-') {negative : Bool}
    {text : List Char} : mark ∈ signed negative text ↔ mark ∈ text := by
  cases negative <;> simp [signed, other]

namespace Json

theorem text_int (n : Int) :
    (int n).text.toList = signed (decide (n < 0))
    (Nat.toDigits 10 n.natAbs) := by
  rw [text, Int.toString_eq_repr]
  cases n with
  | ofNat n =>
      change (Nat.repr n).toList = _
      simp [signed, Nat.repr_eq_ofList_toDigits]
  | negSucc n =>
      change ("-" ++ Nat.repr (n + 1)).toList = _
      simp [signed, Nat.repr_eq_ofList_toDigits]

theorem unsigned_toDigits (n : Nat) :
    (Nat.toDigits 10 n).head?.any Char.isDigit = true := by
  have head := head?_append_any (.toDigits n) Nat.toDigits_ne_nil []
  rwa [List.append_nil] at head

private theorem text_int_inj {m n : Int} (same : (int m).text = (int n).text) :
    m = n := by
  have lists := congrArg String.toList same
  rw [text_int, text_int] at lists
  obtain ⟨signs, digits⟩ :=
    signed_inj (unsigned_toDigits m.natAbs) (unsigned_toDigits n.natAbs) lists
  have magnitudes := congrArg (Nat.ofDigitChars 10 · 0) digits
  simp only [Nat.ofDigitChars_ten_toDigits] at magnitudes
  have signs := decide_eq_decide.mp signs
  omega

private theorem notMem_text_int (n : Int) (mark : Char)
    (noDigit : mark.isDigit = false) (noSign : mark ≠ '-') :
    mark ∉ (int n).text.toList := by
  rw [text_int, mem_signed noSign]
  exact (AllDigits.toDigits n.natAbs).notMem mark noDigit

/-- The text of a floating-point number shows a value that is rounded to it. -/
theorem text_float (x : Finite64) :
    ∃ shown value, (float x).text.toList = signed x.negative shown ∧
      Shows shown value ∧
      x.Encloses (value * (4 * Finite64.unitsPerOne)) := by
  have sign (shown : String) :
      ((if x.negative then "-" else "") ++ shown).toList =
      signed x.negative shown.toList := by
    cases x.negative <;> simp [signed]
  by_cases zero : x.isZero = true
  · have zeros : AllDigits ['0'] := .replicate_zero 1
    have shows := Shows.point zeros (by simp) zeros
    have quarters : x.quarters = 0 := by
      simp [Finite64.quarters, eq_of_beq zero]
    have encloses := x.encloses_quarters
    refine ⟨_, _, ?_, shows, ?_⟩
    · rw [text, NumberLayout.writeFinite, if_pos zero]
      exact sign _
    · have nothing : Nat.ofDigitChars 10 (['0'] ++ ['0']) 0 = 0 := rfl
      rw [nothing, Nat.cast_zero, zero_mul, zero_mul]
      rwa [quarters, Nat.cast_zero] at encloses
  · refine ⟨_, _, ?_, NumberLayout.shows_writeDecimal (x.shortest .toEven),
      x.encloses_shortest .toEven⟩
    rw [text, NumberLayout.writeFinite, if_neg zero]
    exact sign _

private theorem text_float_inj {x y : Finite64}
    (same : (float x).text = (float y).text) :
    x.units = y.units := by
  obtain ⟨left, leftValue, leftText, leftShows, inX⟩ := text_float x
  obtain ⟨right, rightValue, rightText, rightShows, inY⟩ := text_float y
  have lists := congrArg String.toList same
  rw [leftText, rightText] at lists
  obtain ⟨signs, shown⟩ :=
    signed_inj leftShows.unsigned rightShows.unsigned lists
  have values : leftValue = rightValue := by
    rw [← leftShows.read_eq, shown, rightShows.read_eq]
  have magnitudes := inX.magnitude_eq (values ▸ inY)
  rw [Finite64.units, Finite64.units, signs, magnitudes]

private theorem text_int_ne_text_float (n : Int) (x : Finite64) :
    (int n).text ≠ (float x).text := by
  intro same
  obtain ⟨shown, value, text, shows, _⟩ := text_float x
  have lists : (int n).text.toList = signed x.negative shown := by
    rw [same, text]
  rcases shows.marked with point | power
  · refine notMem_text_int n '.' rfl (by decide) ?_
    rw [lists, mem_signed (by decide)]
    exact point
  · refine notMem_text_int n 'e' rfl (by decide) ?_
    rw [lists, mem_signed (by decide)]
    exact power

private theorem scalarKey?_float_eq (x : Finite64) : ∃ y : Finite64,
    (float x).scalarKey? = some (.number (float y).text) ∧
    y.units = x.units := by
  by_cases zero : x.isZero = true
  · refine ⟨.zero, by rw [scalarKey?, if_pos zero], ?_⟩
    have magnitude : x.magnitude = 0 := Finite64.magnitude_eq_zero.mpr zero
    have nothing : Finite64.zero.magnitude = 0 := rfl
    simp [Finite64.units, magnitude, nothing]
  · exact ⟨x, by rw [scalarKey?, if_neg zero], rfl⟩

private theorem scalarKey?_int_ne_float (n : Int) (x : Finite64) :
    (int n).scalarKey? ≠ (float x).scalarKey? := by
  obtain ⟨y, key, _⟩ := scalarKey?_float_eq x
  rw [scalarKey?, key]
  intro same
  apply text_int_ne_text_float n y
  simpa only [Option.some.injEq, ScalarKey.number.injEq] using same

/-- Scalars are found by one key only if they are equal. -/
theorem same_of_scalarKey? {x y : Json} (scalar : x.isScalar = true)
    (key : x.scalarKey? = y.scalarKey?) : (x == y) = true := by
  change x.same y = true
  cases x with
  | null => cases y <;> first | rfl | cases key
  | bool value =>
      cases y with
      | bool other =>
          cases key
          exact beq_self_eq_true value
      | _ => cases key
  | string value =>
      cases y with
      | string other =>
          cases key
          exact beq_self_eq_true value
      | _ => cases key
  | int m =>
      cases y with
      | int n =>
          have text : (int m).text = (int n).text := by
            simpa only [scalarKey?, Option.some.injEq, ScalarKey.number.injEq]
              using key
          exact beq_iff_eq.mpr (text_int_inj text)
      | float y => exact absurd key (scalarKey?_int_ne_float m y)
      | _ => cases key
  | float x =>
      cases y with
      | int n => exact absurd key.symm (scalarKey?_int_ne_float n x)
      | float y =>
          obtain ⟨left, leftKey, leftUnits⟩ := scalarKey?_float_eq x
          obtain ⟨right, rightKey, rightUnits⟩ := scalarKey?_float_eq y
          rw [leftKey, rightKey] at key
          have text : (float left).text = (float right).text := by
            simpa only [Option.some.injEq, ScalarKey.number.injEq] using key
          exact beq_iff_eq.mpr (leftUnits ▸ rightUnits ▸ text_float_inj text)
      | _ => cases key
  | array _ => cases scalar
  | object _ => cases scalar

/-- Arrays and objects have no key, and two scalars have the same one exactly
when they are equal: an integer is no floating-point number, the two zeros of
the latter are one number, and no kinds of values are confused. -/
theorem scalarKey?_tells_apart (x y : Json) :
    (x.scalarKey? = none ↔ (∃ items, x = .array items) ∨
      ∃ members, x = .object members) ∧
      (x.isScalar = true → y.isScalar = true →
        (x.scalarKey? = y.scalarKey? ↔ (x == y) = true)) := by
  constructor
  · cases x <;> simp [scalarKey?]
  · intro scalar _
    exact ⟨same_of_scalarKey? scalar, scalarKey?_eq_of_same⟩

/-- Numbers that are easily confused: an integer and a floating-point number of
one value, the zeros, and one number with the number next to it. -/
theorem scalarKey?_tells_apart_numbers :
    let one : Finite64 :=
      ⟨false, 2 ^ 52, 1022, by decide, .inr (by decide), by decide⟩
    let next : Finite64 :=
      ⟨false, 2 ^ 52 + 1, 1022, by decide, .inr (by decide), by decide⟩
    let minusZero : Finite64 := ⟨true, 0, 0, by decide, .inl rfl, by decide⟩
    (int 1).scalarKey? ≠ (float one).scalarKey? ∧
      (float next).scalarKey? ≠ (float one).scalarKey? ∧
      (float minusZero).scalarKey? = (float .zero).scalarKey? := by
  intro one next minusZero
  refine ⟨?_, ?_, ?_⟩
  · rw [ne_eq, (scalarKey?_tells_apart (int 1) (float one)).2 rfl rfl]
    exact Bool.false_ne_true
  · rw [ne_eq, (scalarKey?_tells_apart (float next) (float one)).2 rfl rfl]
    decide +kernel
  · exact ((scalarKey?_tells_apart (float minusZero) (float .zero)).2
      rfl rfl).mpr (by decide +kernel)

end Json

end JsonMatch
