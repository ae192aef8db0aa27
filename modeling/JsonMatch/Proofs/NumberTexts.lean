import JsonMatch.Number.Layout
import JsonMatch.Proofs.ShortestDecimals
import Mathlib.Data.List.TakeWhile

/-!
# The texts of numbers

What is written for a decimal can be read: the digits on both sides of the point
are those of one natural number, counted in steps of the last place, and the
power of ten stands behind an `e`.  So a text determines the value of its
decimal.  It begins with a digit, and the point or the `e` tells it from the
text of an integer.
-/

namespace JsonMatch

namespace NumberText

/-- What stands on both sides of the first occurrence of a mark. -/
def cut (mark : Char) (text : List Char) : List Char × List Char :=
  (text.takeWhile (· != mark), (text.dropWhile (· != mark)).drop 1)

private theorem bne_of_notMem {mark : Char} {text : List Char}
    (free : mark ∉ text) :
    ∀ c ∈ text, (c != mark) = true :=
  fun _ member => bne_iff_ne.mpr fun same => free (same ▸ member)

theorem cut_append {mark : Char} {left : List Char} (free : mark ∉ left)
    (right : List Char) : cut mark (left ++ mark :: right) = (left, right) := by
  have passes := bne_of_notMem free
  rw [cut, List.takeWhile_append_of_pos passes,
    List.dropWhile_append_of_pos passes]
  simp

theorem cut_of_notMem {mark : Char} {text : List Char} (free : mark ∉ text) :
    cut mark text = (text, []) := by
  have passes := bne_of_notMem free
  rw [cut, List.takeWhile_eq_self_iff.mpr passes,
    List.dropWhile_eq_nil_iff.mpr passes]
  rfl

/-- The number that digits with a point among them denote. -/
def readPositional (text : List Char) : ℚ :=
  let (whole, fraction) := cut '.' text
  Nat.ofDigitChars 10 (whole ++ fraction) 0 * 10 ^ (-(fraction.length : Int))

/-- The exponent that is written with its sign. -/
def readPower : List Char → Int
  | '-' :: digits => -(Nat.ofDigitChars 10 digits 0 : Nat)
  | '+' :: digits => (Nat.ofDigitChars 10 digits 0 : Nat)
  | _ => 0

/-- The number that a text without a sign denotes. -/
def read (text : List Char) : ℚ :=
  let (mantissa, power) := cut 'e' text
  readPositional mantissa * 10 ^ readPower power

/-- Whether a text consists of digits. -/
def AllDigits (text : List Char) : Prop :=
  ∀ c ∈ text, c.isDigit = true

namespace AllDigits

variable {text : List Char}

theorem notMem (digits : AllDigits text) (mark : Char)
    (other : mark.isDigit = false) :
    mark ∉ text := by
  intro member
  rw [digits mark member] at other
  cases other

theorem append {more : List Char} (left : AllDigits text)
    (right : AllDigits more) :
    AllDigits (text ++ more) := by
  intro c member
  exact (List.mem_append.mp member).elim (left c) (right c)

theorem take (digits : AllDigits text) (count : Nat) :
    AllDigits (text.take count) :=
  fun c member => digits c (List.mem_of_mem_take member)

theorem drop (digits : AllDigits text) (count : Nat) :
    AllDigits (text.drop count) :=
  fun c member => digits c (List.mem_of_mem_drop member)

theorem replicate_zero (count : Nat) :
    AllDigits (List.replicate count '0') := by
  intro c member
  rw [List.eq_of_mem_replicate member]
  rfl

theorem toDigits (n : Nat) : AllDigits (Nat.toDigits 10 n) :=
  fun _ member => Nat.isDigit_of_mem_toDigits (by decide) (by decide) member

end AllDigits

theorem readPositional_point {whole : List Char} (digits : AllDigits whole)
    (fraction : List Char) : readPositional (whole ++ '.' :: fraction) =
      Nat.ofDigitChars 10 (whole ++ fraction) 0 *
        10 ^ (-(fraction.length : Int)) := by
  rw [readPositional, cut_append (digits.notMem '.' rfl)]

theorem readPositional_digits {text : List Char} (digits : AllDigits text) :
    readPositional text = Nat.ofDigitChars 10 text 0 := by
  simp [readPositional, cut_of_notMem (digits.notMem '.' rfl)]

theorem readPower_sign (power : Int) :
    readPower ((if power < 0 then '-' else '+') ::
      Nat.toDigits 10 power.natAbs) =
      power := by
  split
  · rw [readPower, Nat.ofDigitChars_ten_toDigits]
    omega
  · rw [readPower, Nat.ofDigitChars_ten_toDigits]
    omega

/-- What a text shows of the number without a sign for which it is written. -/
structure Shows (text : List Char) (value : ℚ) : Prop where
  read_eq : read text = value
  /-- The text of an integer has neither. -/
  marked : '.' ∈ text ∨ 'e' ∈ text
  /-- The sign does not belong to the text. -/
  unsigned : text.head?.any Char.isDigit = true

theorem head?_append_any {left : List Char} (digits : AllDigits left)
    (some : left ≠ []) (right : List Char) :
    (left ++ right).head?.any Char.isDigit = true := by
  cases left with
  | nil => exact absurd rfl some
  | cons first left => exact digits first List.mem_cons_self

theorem Shows.point {whole fraction : List Char} (wholeDigits : AllDigits whole)
    (some : whole ≠ []) (fractionDigits : AllDigits fraction) :
    Shows (whole ++ '.' :: fraction)
      (Nat.ofDigitChars 10 (whole ++ fraction) 0 *
        10 ^ (-(fraction.length : Int))) where
  read_eq := by
    have noPower : 'e' ∉ whole ++ '.' :: fraction := by
      simp [wholeDigits.notMem 'e' rfl, fractionDigits.notMem 'e' rfl]
    rw [read, cut_of_notMem noPower]
    simp only [readPower, zpow_zero, mul_one]
    exact readPositional_point wholeDigits fraction
  marked := .inl (by simp)
  unsigned := head?_append_any wholeDigits some _

end NumberText

namespace NumberLayout

open NumberText

theorem shows_writePositional {digits : List Char}
    (allDigits : AllDigits digits) (some : digits ≠ []) (point : Int) :
    Shows (json.writePositional digits point).toList
      (Nat.ofDigitChars 10 digits 0 * 10 ^ (point - digits.length)) := by
  have zero : AllDigits ['0'] := .replicate_zero 1
  rw [writePositional]
  split
  · rename_i small
    have shows := Shows.point zero (by simp)
      ((AllDigits.replicate_zero (-point).toNat).append allDigits)
    have nothing : Nat.ofDigitChars 10 ['0'] 0 = 0 := rfl
    have exponent :
        (-((List.replicate (-point).toNat '0' ++ digits).length : Int)) =
        point - digits.length := by
      rw [List.length_append, List.length_replicate]
      omega
    rw [Nat.ofDigitChars_append, nothing, Nat.ofDigitChars_append,
      Nat.ofDigitChars_replicate_zero, Nat.mul_zero, exponent] at shows
    simpa [zeros] using shows
  · rename_i positive
    split
    · rename_i inside
      have shows := Shows.point (allDigits.take point.toNat)
        (by simp [some]; omega) (allDigits.drop point.toNat)
      have exponent : (-((digits.drop point.toNat).length : Int)) =
          point - digits.length := by
        rw [List.length_drop]
        omega
      rw [List.take_append_drop, exponent] at shows
      simpa using shows
    · rename_i outside
      have shows := Shows.point
        (allDigits.append (.replicate_zero (point.toNat - digits.length)))
        (by simp [some]) zero
      have last : Nat.ofDigitChars 10
          (digits ++ List.replicate (point.toNat - digits.length) '0' ++
            ['0']) 0 =
            Nat.ofDigitChars 10 digits 0 *
              10 ^ (point.toNat - digits.length) * 10 := by
        rw [Nat.ofDigitChars_append, Nat.ofDigitChars_append,
          Nat.ofDigitChars_replicate_zero, Nat.ofDigitChars_cons]
        exact (Nat.mul_comm _ _).trans (congrArg (· * 10) (Nat.mul_comm _ _))
      have raised : (10 : ℚ) ^ (point - digits.length) =
          10 ^ (point.toNat - digits.length) := by
        rw [← zpow_natCast]
        congr 1
        omega
      rw [last] at shows
      rw [raised]
      simpa [zeros, json] using shows

theorem shows_writeExponent {digits : List Char} (allDigits : AllDigits digits)
    (some : digits ≠ []) (leading : Int) :
    Shows (writeExponent digits leading).toList
      (Nat.ofDigitChars 10 digits 0 * 10 ^ (leading + 1 - digits.length)) := by
  obtain ⟨first, fraction, rfl⟩ := List.exists_cons_of_ne_nil some
  have firstDigits : AllDigits [first] := allDigits.take 1
  have fractionDigits : AllDigits fraction := allDigits.drop 1
  let mantissa := if fraction.isEmpty then [first]
    else [first] ++ '.' :: fraction
  have text : (writeExponent (first :: fraction) leading).toList =
      mantissa ++ 'e' ::
      (if leading < 0 then '-' else '+') :: Nat.toDigits 10 leading.natAbs := by
    have sign : (if leading < 0 then "-" else "+").toList =
        [if leading < 0 then '-' else '+'] := by
      split <;> rfl
    cases fraction <;>
      simp [writeExponent, mantissa, sign]
  have noPower : 'e' ∉ mantissa := by
    have firstFree := firstDigits.notMem 'e' rfl
    have fractionFree := fractionDigits.notMem 'e' rfl
    simp only [mantissa]
    cases fraction <;> simp_all
  have value : readPositional mantissa =
      Nat.ofDigitChars 10 (first :: fraction) 0 *
        10 ^ (-(fraction.length : Int)) := by
    simp only [mantissa]
    split
    · rename_i empty
      rw [List.isEmpty_iff.mp empty, readPositional_digits firstDigits]
      simp
    · exact readPositional_point firstDigits fraction
  have exponent : -(fraction.length : Int) + leading =
      leading + 1 - (first :: fraction).length := by
    rw [List.length_cons]
    omega
  constructor
  · rw [text, NumberText.read, cut_append noPower]
    simp only [readPower_sign, value]
    rw [mul_assoc, ← zpow_add₀ (by norm_num), exponent]
  · rw [text]
    exact .inr (by simp)
  · rw [text]
    simp only [mantissa]
    split <;> exact firstDigits first List.mem_cons_self

/-- The text of a decimal shows its value. -/
theorem shows_writeDecimal (decimal : Decimal) :
    Shows (json.writeDecimal decimal).toList decimal.value := by
  have digits := Nat.ofDigitChars_ten_toDigits (n := decimal.digits)
  have allDigits := AllDigits.toDigits decimal.digits
  have some : Nat.toDigits 10 decimal.digits ≠ [] := Nat.toDigits_ne_nil
  simp only [writeDecimal]
  split
  · have shows := shows_writePositional allDigits some
      ((Nat.toDigits 10 decimal.digits).length + decimal.exponent)
    rwa [digits, add_sub_cancel_left] at shows
  · have shows := shows_writeExponent allDigits some
      ((Nat.toDigits 10 decimal.digits).length + decimal.exponent - 1)
    rwa [digits, Int.sub_add_cancel, add_sub_cancel_left] at shows

end NumberLayout

end JsonMatch
