import Mathlib
import RoadFlow.Decimal.Layout
import RoadFlow.Decimal.Read
import RoadFlow.Proofs.Decimal.Shortest

/-!
# Numbers written and read

A numeral that is written out is read as digits and a power of ten of the same value
(`positional_parts`, `unsignedNumber?_parts`). So the bits of a single-precision number are read back
from its text (`read_plain`).
-/

namespace RoadFlow.Decimal

/-! ## Digits -/

theorem toList_zeros (n : ℕ) : (zeros n).toList = List.replicate n '0' := String.toList_ofList

theorem toList_toString (n : ℕ) : (toString n).toList = Nat.toDigits 10 n := Nat.toList_repr

theorem isDigit_toDigits {n : ℕ} {c : Char} (h : c ∈ Nat.toDigits 10 n) : c.isDigit = true :=
  Nat.isDigit_of_mem_toDigits (by decide) (by decide) h

theorem spanDigits_append {digits rest : List Char} (decimal : ∀ c ∈ digits, c.isDigit = true)
    (stop : ∀ c ∈ rest.head?, c.isDigit = false) : spanDigits (digits ++ rest) = (digits, rest) := by
  rw [spanDigits, List.takeWhile_append_of_pos decimal, List.dropWhile_append_of_pos decimal]
  cases rest with
  | nil => simp
  | cons c rest =>
    have stop : c.isDigit = false := stop c rfl
    simp [stop]

/-- Digits with a point before the places, if there are any. -/
theorem unsignedNumber?_parts {whole places : List Char} (filled : whole ≠ [])
    (decimal : ∀ c ∈ whole ++ places, c.isDigit = true) :
    unsignedNumber? (whole ++ if places = [] then [] else '.' :: places) =
      some (Nat.ofDigitChars 10 (whole ++ places) 0, -(places.length : ℤ)) := by
  have front : ∀ c ∈ whole, c.isDigit = true := fun c hc => decimal c (by simp [hc])
  have back : ∀ c ∈ places, c.isDigit = true := fun c hc => decimal c (by simp [hc])
  have some : whole.isEmpty = false := by simpa using filled
  have span : spanDigits (whole ++ if places = [] then [] else '.' :: places) =
      (whole, if places = [] then [] else '.' :: places) := by
    apply spanDigits_append front
    split <;> simp
  rw [unsignedNumber?, span]
  by_cases none : places = []
  · subst none
    simp [some, digitsValue, Nat.ofDigitChars]
  · have rest : spanDigits (places ++ []) = (places, []) := spanDigits_append back (by simp)
    rw [List.append_nil] at rest
    simp [none, rest, some, digitsValue, Nat.ofDigitChars]

/-! ## Numerals -/

/-- A numeral written out is its digits, with a point or zeros where its power asks for them. -/
theorem Numeral.positional_parts (d : Numeral) :
    ∃ whole places : List Char, whole ≠ [] ∧ (∀ c ∈ whole ++ places, c.isDigit = true) ∧
      d.positional.toList = whole ++ (if places = [] then [] else '.' :: places) ∧
      (Nat.ofDigitChars 10 (whole ++ places) 0 : ℚ) * 10 ^ (-(places.length : ℤ)) = d.value := by
  have filled : Nat.toDigits 10 d.digits ≠ [] := Nat.toDigits_ne_nil
  have decimal : ∀ c ∈ Nat.toDigits 10 d.digits, c.isDigit = true := fun c => isDigit_toDigits
  have zero (n : ℕ) : ∀ c ∈ List.replicate n '0', c.isDigit = true := by
    intro c hc
    rw [List.eq_of_mem_replicate hc]
    rfl
  unfold positional
  dsimp only
  rw [toList_toString]
  split
  · rename_i whole
    refine ⟨Nat.toDigits 10 d.digits ++ List.replicate d.power.toNat '0', [], ?_, ?_, ?_, ?_⟩
    · simp [filled]
    · rw [List.append_nil, List.forall_mem_append]
      exact ⟨decimal, zero _⟩
    · simp [toList_zeros]
    · rw [List.append_nil, Nat.ofDigitChars_append, Nat.ofDigitChars_ten_toDigits,
        Nat.ofDigitChars_replicate_zero, value]
      obtain ⟨n, power⟩ := Int.eq_ofNat_of_zero_le whole
      rw [power]
      push_cast
      simp [mul_comm]
  · obtain ⟨n, power, some⟩ : ∃ n : ℕ, d.power = -n ∧ 0 < n := ⟨(-d.power).toNat, by omega⟩
    rw [value, power, neg_neg, Int.toNat_natCast]
    have length : 0 < (Nat.toDigits 10 d.digits).length := List.length_pos_of_ne_nil filled
    split
    · rename_i inside
      let cut := (Nat.toDigits 10 d.digits).length - n
      have places : ((Nat.toDigits 10 d.digits).drop cut).length = n := by
        rw [List.length_drop]
        omega
      have point : (Nat.toDigits 10 d.digits).drop cut ≠ [] :=
        List.ne_nil_of_length_pos (places ▸ some)
      refine ⟨(Nat.toDigits 10 d.digits).take cut, (Nat.toDigits 10 d.digits).drop cut,
        ?_, ?_, ?_, ?_⟩
      · rw [ne_eq, List.take_eq_nil_iff, not_or]
        exact ⟨by omega, filled⟩
      · rw [List.take_append_drop]
        exact decimal
      · rw [if_neg point]
        simp [cut]
      · rw [List.take_append_drop, Nat.ofDigitChars_ten_toDigits, places]
    · rename_i outside
      let pad := n - (Nat.toDigits 10 d.digits).length
      have places : (List.replicate pad '0' ++ Nat.toDigits 10 d.digits).length = n := by
        rw [List.length_append, List.length_replicate]
        omega
      refine ⟨['0'], List.replicate pad '0' ++ Nat.toDigits 10 d.digits, by decide, ?_, ?_, ?_⟩
      · rw [List.forall_mem_append, List.forall_mem_append]
        exact ⟨List.forall_mem_singleton.mpr rfl, zero _, decimal⟩
      · simp [filled, toList_zeros, pad]
      · rw [places, ← List.append_assoc, ← List.replicate_one, List.replicate_append_replicate,
          Nat.ofDigitChars_append, Nat.ofDigitChars_replicate_zero, Nat.mul_zero,
          Nat.ofDigitChars_ten_toDigits]

/-! ## Signs and names -/

namespace Format

variable {f : Format} {body : String} {negative : Bool}

theorem toList_signed (negative : Bool) (body : String) :
    (signed negative body).toList = if negative then '-' :: body.toList else body.toList := by
  cases negative <;> simp [signed]

/-- A digit is neither a sign nor the first letter of a name. -/
theorem plain_of_isDigit {c : Char} (digit : c.isDigit = true) :
    c ≠ '-' ∧ c ≠ '+' ∧ c.toLower ≠ 'n' ∧ c.toLower ≠ 'i' := by
  have lower : c.toLower = c := by
    rw [Char.toLower, dif_neg]
    intro upper
    simp only [Char.isDigit, Bool.and_eq_true, decide_eq_true_eq] at digit
    have between : 'A'.val ≤ '9'.val := UInt32.le_trans upper.1 digit.2
    exact absurd between (by decide)
  rw [lower]
  refine ⟨?_, ?_, ?_, ?_⟩ <;> rintro rfl <;> cases digit

/-- A number that begins with a digit is read behind its sign. -/
theorem read_signed {c : Char} {rest : List Char} (starts : body.toList = c :: rest)
    (digit : c.isDigit = true) {digits : ℕ} {power : ℤ}
    (number : unsignedNumber? body.toList = some (digits, power)) :
    f.read (signed negative body).toList =
      .ok ((if negative then f.signBit else 0) + f.ofDecimal digits power) := by
  obtain ⟨minus, plus, nan, inf⟩ := plain_of_isDigit digit
  rw [starts] at number
  rw [toList_signed, starts]
  cases negative
  · simp [read, minus, plus, nan, inf, number]
  · simp [read, nan, inf, number]

/-- The shortest decimal of a number, written out with a sign, is read as the number. -/
theorem read_shortest {mantissa : ℕ} {power : ℤ} (some : 0 < mantissa)
    (short : 2 * mantissa < 10 ^ 16) (normal : f.Normal mantissa power)
    (largest : mantissa + (power - f.lowest).toNat * twoTo f.fraction ≤ f.infinity)
    (inRange : ∀ v, f.Reads mantissa power v →
      (10 : ℚ) ^ (-400 : ℤ) ≤ v ∧ v < (10 : ℚ) ^ (400 : ℤ)) (tie : Tie) (negative : Bool) :
    f.read (signed negative (f.shortest tie mantissa power).positional).toList =
      .ok ((if negative then f.signBit else 0) +
        (mantissa + (power - f.lowest).toNat * twoTo f.fraction)) := by
  have reads : f.Reads mantissa power _ := f.reads_shortest some short tie
  have positive := reads.pos some
  obtain ⟨whole, places, filled, decimal, text, value⟩ :=
    (f.shortest tie mantissa power).positional_parts
  obtain ⟨c, rest, rfl⟩ := List.exists_cons_of_ne_nil filled
  have number := unsignedNumber?_parts filled decimal
  rw [← text] at number
  rw [read_signed text (decimal c (by simp)) number]
  rw [← value] at reads positive
  obtain ⟨low, high⟩ := inRange _ reads
  have digits : 0 < Nat.ofDigitChars 10 (c :: rest ++ places) 0 := by
    apply Nat.pos_of_ne_zero
    intro none
    rw [none, Nat.cast_zero, zero_mul] at positive
    exact lt_irrefl _ positive
  obtain ⟨num, den, unit, quotient, decimalRead⟩ := ofDecimal_eq (f := f) digits low high
  rw [← quotient] at reads
  rw [decimalRead, nearest_eq unit normal some reads, min_eq_left largest]

theorem read_infinity : f.read (signed negative "inf").toList =
    .ok ((if negative then f.signBit else 0) + f.infinity) := by
  rw [toList_signed]
  cases negative <;> rfl

theorem read_nan : f.read "NaN".toList = .ok f.nanBits := rfl

end Format

end RoadFlow.Decimal
