import Mathlib.Algebra.Order.Field.Power
import Mathlib.Data.Int.Log
import Mathlib.Data.Rat.Floor
import Mathlib.Tactic.FieldSimp
import Mathlib.Tactic.GCongr
import Mathlib.Tactic.Linarith
import Mathlib.Tactic.NormNum
import Mathlib.Tactic.Positivity
import Mathlib.Tactic.Ring
import RoadFlow.Decimal.Format

/-!
# Rounding to a format

The numbers that round to one of a format lie between the halves of the gaps beside it, and at
those halves if its mantissa is even (`Format.Reads`). The nearest bits to any of them are its own
(`nearest_eq`), also when they are given as a decimal (`ofDecimal_eq`).
-/

namespace RoadFlow.Decimal

theorem cast_twoTo (n : ℕ) : (twoTo n : ℚ) = 2 ^ n := Nat.cast_pow 2 n

theorem cast_tenTo (n : ℕ) : (tenTo n : ℚ) = 10 ^ n := Nat.cast_pow 10 n

theorem twoTo_pos (n : ℕ) : 0 < twoTo n := Nat.two_pow_pos n

theorem tenTo_pos (n : ℕ) : 0 < tenTo n := Nat.pow_pos (by decide)

/-- A power with a sign as the quotient of two without. -/
theorem zpow_eq_div (b : ℚ) (p : ℤ) : b ^ p = b ^ p.toNat / b ^ (-p).toNat := by
  obtain ⟨n, rfl | rfl⟩ := p.eq_nat_or_neg
  · simp
  · simp [zpow_neg]

/-! ## Whole numbers -/

/-- A quotient is rounded to the whole number from which it is half a unit away at most, or less if
that number is odd. -/
theorem roundHalfEven_eq {num den m : ℕ} (positive : 0 < den)
    (near : |(num : ℚ) / den - m| ≤ 1 / 2)
    (half : |(num : ℚ) / den - m| = 1 / 2 → m % 2 = 0) : roundHalfEven num den = m := by
  have unit : (0 : ℚ) < den := by exact_mod_cast positive
  have parts : (num : ℚ) / den = (num / den : ℕ) + (num % den : ℕ) / den := by
    rw [div_eq_iff unit.ne', add_mul, div_mul_cancel₀ _ unit.ne']
    exact_mod_cast (Nat.div_add_mod' num den).symm
  have bound : num % den < den := Nat.mod_lt num positive
  rw [parts] at near half
  unfold roundHalfEven
  dsimp only
  generalize num / den = whole at near half ⊢
  generalize num % den = rest at near half bound ⊢
  obtain ⟨low, high⟩ := abs_le.mp near
  rcases Nat.lt_trichotomy (2 * rest) den with below | middle | above
  · have below' : (rest : ℚ) / den < 1 / 2 := by
      rw [div_lt_div_iff₀ unit two_pos]
      exact_mod_cast (by omega : rest * 2 < 1 * den)
    have rest' : (0 : ℚ) ≤ rest / den := by positivity
    have least : (m : ℚ) < (whole + 1 : ℕ) := by push_cast; linarith
    have most : (whole : ℚ) < (m + 1 : ℕ) := by push_cast; linarith
    rw [Nat.cast_lt] at least most
    rw [if_pos below]
    omega
  · have middle' : (rest : ℚ) / den = 1 / 2 := by
      rw [div_eq_div_iff unit.ne' two_ne_zero]
      exact_mod_cast (by omega : rest * 2 = 1 * den)
    rw [middle'] at low high half
    have least : (m : ℚ) ≤ (whole + 1 : ℕ) := by push_cast; linarith
    have most : (whole : ℚ) ≤ m := by linarith
    rw [Nat.cast_le] at least most
    have even : m % 2 = 0 := by
      apply half
      rcases Nat.eq_or_lt_of_le most with rfl | next
      · simp
      · obtain rfl : m = whole + 1 := by omega
        push_cast
        norm_num
    rw [if_neg (by omega), if_neg (by omega)]
    omega
  · have above' : 1 / 2 < (rest : ℚ) / den := by
      rw [div_lt_div_iff₀ two_pos unit]
      exact_mod_cast (by omega : 1 * den < rest * 2)
    have most : (whole : ℚ) < m := by linarith
    have cut : (rest : ℚ) / den < 1 := by
      rw [div_lt_one unit]
      exact_mod_cast bound
    have least : (m : ℚ) < (whole + 2 : ℕ) := by push_cast; linarith
    rw [Nat.cast_lt] at least most
    rw [if_neg (by omega), if_pos above]
    omega

/-! ## Logarithms -/

/-- A quotient is not below the power that the sizes of its parts give it. -/
theorem zpow_lt_div {base num den a b : ℕ} (large : 1 < base) (positive : 0 < den)
    (low : base ^ a ≤ num) (high : den < base ^ (b + 1)) :
    (base : ℚ) ^ ((a : ℤ) - b - 1) < num / den := by
  have unit : (0 : ℚ) < den := by exact_mod_cast positive
  have some : (base : ℚ) ≠ 0 := by exact_mod_cast (Nat.zero_lt_of_lt large).ne'
  have split : (base : ℚ) ^ ((a : ℤ) - b - 1) = base ^ a / base ^ (b + 1) := by
    rw [sub_sub, zpow_sub₀ some]
    exact_mod_cast rfl
  rw [split, div_lt_div_iff₀ (by positivity) unit]
  have front : 0 < base ^ a := Nat.pow_pos (Nat.zero_lt_of_lt large)
  exact_mod_cast Nat.mul_lt_mul_of_le_of_lt low high (front.trans_le low)

theorem div_lt_zpow {base num den a b : ℕ} (large : 1 < base) (positive : 0 < den)
    (high : num < base ^ (a + 1)) (low : base ^ b ≤ den) :
    (num : ℚ) / den < base ^ ((a : ℤ) - b + 1) := by
  have unit : (0 : ℚ) < den := by exact_mod_cast positive
  have some : (base : ℚ) ≠ 0 := by exact_mod_cast (Nat.zero_lt_of_lt large).ne'
  have split : (base : ℚ) ^ ((a : ℤ) - b + 1) = base ^ (a + 1) / base ^ b := by
    rw [sub_add_eq_add_sub, zpow_sub₀ some]
    exact_mod_cast rfl
  rw [split, div_lt_div_iff₀ unit (by positivity)]
  exact_mod_cast Nat.mul_lt_mul_of_lt_of_le high low positive

/-- Whether a quotient reaches a power is decided without the quotient. -/
theorem zpow_le_div_iff {base num den : ℕ} (some : 0 < base) (positive : 0 < den) (p : ℤ) :
    (base : ℚ) ^ p ≤ num / den ↔ den * base ^ p.toNat ≤ num * base ^ (-p).toNat := by
  have unit : (0 : ℚ) < den := by exact_mod_cast positive
  have base' : (0 : ℚ) < base := by exact_mod_cast some
  rw [zpow_eq_div, div_le_div_iff₀ (by positivity) unit, mul_comm]
  exact_mod_cast Iff.rfl

theorem log_eq {v : ℚ} (positive : 0 < v) {e : ℤ} (low : 2 ^ e ≤ v) (high : v < 2 ^ (e + 1)) :
    Int.log 2 v = e := by
  have least := (Int.zpow_le_iff_le_log (b := 2) one_lt_two positive).mp low
  have most := (Int.lt_zpow_iff_log_lt (b := 2) one_lt_two positive).mp high
  omega

theorem lt_log_iff {v : ℚ} (positive : 0 < v) (e p : ℤ) :
    Int.log 2 v < e + p ↔ v / 2 ^ p < 2 ^ e := by
  have unit : (0 : ℚ) < 2 ^ p := by positivity
  rw [div_lt_iff₀ unit, ← zpow_add₀ two_ne_zero]
  exact (Int.lt_zpow_iff_log_lt (b := 2) one_lt_two positive).symm

theorem floorLog2_eq {num den : ℕ} (some : 0 < num) (positive : 0 < den) :
    Format.floorLog2 num den = Int.log 2 ((num : ℚ) / den) := by
  have quotient : (0 : ℚ) < num / den := by positivity
  have low := zpow_lt_div one_lt_two positive (Nat.log2_self_le some.ne') (Nat.lt_log2_self (n := den))
  have high := div_lt_zpow one_lt_two positive (Nat.lt_log2_self (n := num))
    (Nat.log2_self_le positive.ne')
  have reaches (p : ℤ) : (if 0 ≤ p then den * twoTo p.toNat ≤ num
      else den ≤ num * twoTo (-p).toNat) ↔ (2 : ℚ) ^ p ≤ num / den := by
    have reached : ((2 : ℕ) : ℚ) ^ p ≤ num / den ↔ _ := zpow_le_div_iff two_pos positive p
    rw [Nat.cast_two] at reached
    rw [reached]
    split
    · rw [Int.toNat_of_nonpos (by omega : -p ≤ 0)]
      simp [twoTo]
    · rw [Int.toNat_of_nonpos (by omega : p ≤ 0)]
      simp [twoTo]
  unfold Format.floorLog2
  dsimp only
  by_cases holds : (2 : ℚ) ^ ((num.log2 : ℤ) - den.log2) ≤ num / den
  · rw [if_pos ((reaches _).mpr holds)]
    exact (log_eq quotient holds high).symm
  · rw [if_neg (mt (reaches _).mp holds)]
    refine (log_eq quotient low.le ?_).symm
    rw [sub_add_cancel]
    exact not_le.mp holds

/-- A number lies below the power of ten that has one digit more, and not below that of its first
digit. -/
theorem digits_bounds {digits : ℕ} (some : 0 < digits) :
    ((10 : ℚ) ^ (((Nat.toDigits 10 digits).length : ℤ) - 1) ≤ digits) ∧
      (digits : ℚ) < 10 ^ ((Nat.toDigits 10 digits).length : ℤ) := by
  have filled : 0 < (Nat.toDigits 10 digits).length := Nat.length_toDigits_pos
  have count {k : ℕ} (positive : 0 < k) :=
    Nat.length_toDigits_le_iff (n := digits) (by decide : 1 < 10) positive
  constructor
  · rw [← Nat.cast_pred filled, zpow_natCast]
    rcases Nat.eq_zero_or_pos ((Nat.toDigits 10 digits).length - 1) with one | more
    · rw [one]
      exact_mod_cast some
    · have less := (count more).not.mp (by omega)
      exact_mod_cast Nat.le_of_not_lt less
  · rw [zpow_natCast]
    exact_mod_cast (count filled).mp le_rfl

/-! ## Numbers that round to one of a format -/

namespace Format

variable {f : Format} {mantissa : ℕ} {power : ℤ} {v : ℚ}

/-- A number of a format as its bits have it: the mantissa has all its places unless the exponent
is the lowest. -/
structure Normal (f : Format) (mantissa : ℕ) (power : ℤ) : Prop where
  below : mantissa < 2 ^ (f.fraction + 1)
  lowest : f.lowest ≤ power
  leading : f.lowest < power → 2 ^ f.fraction ≤ mantissa

/-- How far below a number those reach that round to it, in units of its last place. -/
def reach (f : Format) (mantissa : ℕ) (power : ℤ) : ℚ :=
  if mantissa = twoTo f.fraction ∧ f.lowest < power then 1 / 4 else 1 / 2

/-- A number that rounds to `mantissa * 2 ^ power`. -/
structure Reads (f : Format) (mantissa : ℕ) (power : ℤ) (v : ℚ) : Prop where
  low : mantissa - f.reach mantissa power ≤ v / 2 ^ power
  high : v / 2 ^ power ≤ mantissa + 1 / 2
  odd : mantissa % 2 = 1 → mantissa - f.reach mantissa power < v / 2 ^ power ∧
    v / 2 ^ power < mantissa + 1 / 2

theorem reach_le (f : Format) (mantissa : ℕ) (power : ℤ) : f.reach mantissa power ≤ 1 / 2 := by
  unfold reach
  split <;> norm_num

theorem Reads.pos (some : 0 < mantissa) (reads : f.Reads mantissa power v) : 0 < v := by
  have one : (1 : ℚ) ≤ mantissa := by exact_mod_cast some
  have reach := reach_le f mantissa power
  have quotient : 0 < v / 2 ^ power := by linarith [reads.low]
  have unit : (0 : ℚ) < 2 ^ power := by positivity
  exact (div_pos_iff_of_pos_right unit).mp quotient

/-- A quotient over a power of two as a quotient of whole numbers. -/
theorem exists_scaled (num : ℕ) {den : ℕ} (positive : 0 < den) (p : ℤ) :
    ∃ n d : ℕ, 0 < d ∧ (n : ℚ) / d = num / den / 2 ^ p ∧
      (if 0 ≤ p then roundHalfEven num (den * twoTo p.toNat)
        else roundHalfEven (num * twoTo (-p).toNat) den) = roundHalfEven n d := by
  rw [zpow_eq_div]
  split
  · refine ⟨_, _, Nat.mul_pos positive (twoTo_pos _), ?_, rfl⟩
    rw [Int.toNat_of_nonpos (by omega : -p ≤ 0)]
    push_cast [cast_twoTo]
    rw [pow_zero, div_one, div_div]
  · refine ⟨_, _, positive, ?_, rfl⟩
    rw [Int.toNat_of_nonpos (by omega : p ≤ 0)]
    push_cast [cast_twoTo]
    rw [pow_zero, one_div, div_inv_eq_mul, div_mul_eq_mul_div]

/-- The last place of what a number is rounded to, and how many of them it has. -/
theorem nearest_scaled {num den m : ℕ} {p : ℤ} (some : 0 < num) (positive : 0 < den)
    (place : max (Int.log 2 ((num : ℚ) / den) - f.fraction) f.lowest = p)
    (near : |(num : ℚ) / den / 2 ^ p - m| ≤ 1 / 2)
    (half : |(num : ℚ) / den / 2 ^ p - m| = 1 / 2 → m % 2 = 0) :
    f.nearest num den = min (m + (p - f.lowest).toNat * twoTo f.fraction) f.infinity := by
  obtain ⟨n, d, unit, scaled, rounded⟩ := exists_scaled num positive p
  rw [← scaled] at near half
  unfold nearest
  dsimp only
  rw [if_neg some.ne', floorLog2_eq some positive, place, rounded, roundHalfEven_eq unit near half]

/-- The numbers that round to one are read as it. -/
theorem nearest_eq {num den : ℕ} (positive : 0 < den) (normal : f.Normal mantissa power)
    (filled : 0 < mantissa) (reads : f.Reads mantissa power (num / den)) :
    f.nearest num den =
      min (mantissa + (power - f.lowest).toNat * twoTo f.fraction) f.infinity := by
  have value := reads.pos filled
  have some : 0 < num := by
    apply Nat.pos_of_ne_zero
    rintro rfl
    simp at value
  obtain ⟨low, high, odd⟩ := reads
  have reach := reach_le f mantissa power
  have below : (num : ℚ) / den / 2 ^ power < 2 ^ (f.fraction + 1) := by
    have top : (mantissa + 1 : ℚ) ≤ 2 ^ (f.fraction + 1) := by exact_mod_cast normal.below
    linarith
  have least := normal.lowest
  have most := (lt_log_iff value (f.fraction + 1) power).mpr (by exact_mod_cast below)
  by_cases short : (num : ℚ) / den / 2 ^ power < 2 ^ f.fraction ∧ f.lowest < power
  · -- Below the least mantissa the places are half as wide, and there are twice as many.
    obtain ⟨short, above⟩ := short
    obtain rfl : mantissa = 2 ^ f.fraction := by
      apply Nat.le_antisymm _ (normal.leading above)
      have next : (mantissa : ℚ) < (2 ^ f.fraction + 1 : ℕ) := by push_cast; linarith
      exact Nat.lt_succ_iff.mp (by exact_mod_cast next)
    have quarter : f.reach (2 ^ f.fraction) power = 1 / 4 := if_pos ⟨rfl, above⟩
    push_cast at low
    rw [quarter] at low
    have doubled : (num : ℚ) / den / 2 ^ (power - 1) = 2 * (num / den / 2 ^ power) := by
      rw [zpow_sub₀ two_ne_zero, zpow_one]
      field_simp
    have place : max (Int.log 2 ((num : ℚ) / den) - f.fraction) f.lowest = power - 1 := by
      have above' := (lt_log_iff value f.fraction power).mpr (by exact_mod_cast short)
      have below' := (lt_log_iff value f.fraction (power - 1)).not.mpr (by
        rw [doubled, zpow_natCast]
        have one : (1 : ℚ) ≤ 2 ^ f.fraction := one_le_pow₀ one_le_two
        linarith)
      omega
    rw [nearest_scaled some positive place (m := 2 * 2 ^ f.fraction)]
    · congr 1
      obtain ⟨k, gap⟩ : ∃ k : ℕ, power - f.lowest = k + 1 := ⟨(power - f.lowest - 1).toNat, by omega⟩
      have gap' : power - 1 - f.lowest = k := by omega
      rw [gap, gap', Int.toNat_natCast, Int.toNat_natCast_add_one]
      simp only [twoTo, Nat.pow_eq]
      ring
    · rw [doubled, abs_le]
      push_cast
      constructor <;> linarith
    · exact fun _ => Nat.mul_mod_right 2 _
  · have place : max (Int.log 2 ((num : ℚ) / den) - f.fraction) f.lowest = power := by
      by_cases above : f.lowest < power
      · have long := (lt_log_iff value f.fraction power).not.mpr (by
          rw [zpow_natCast]
          exact fun less => short ⟨less, above⟩)
        omega
      · omega
    rw [nearest_scaled some positive place (m := mantissa)]
    · rw [abs_le]
      constructor <;> linarith
    · intro half
      by_contra other
      obtain ⟨low', high'⟩ := odd (Nat.mod_two_ne_zero.mp other)
      rcases abs_eq (by norm_num) |>.mp half with half | half <;> linarith

/-! ## Decimals -/

/-- A decimal that is neither too large nor too small for any format is read to nearest. -/
theorem ofDecimal_eq {digits : ℕ} {p : ℤ} (some : 0 < digits)
    (low : (10 : ℚ) ^ (-400 : ℤ) ≤ digits * 10 ^ p) (high : (digits * 10 ^ p : ℚ) < 10 ^ (400 : ℤ)) :
    ∃ num den : ℕ, 0 < den ∧ (num : ℚ) / den = digits * 10 ^ p ∧
      f.ofDecimal digits p = f.nearest num den := by
  obtain ⟨first, last⟩ := digits_bounds some
  have unit : (0 : ℚ) < 10 ^ p := by positivity
  have power {a b : ℤ} (less : (10 : ℚ) ^ a < 10 ^ b) : a < b :=
    (zpow_lt_zpow_iff_right₀ (by norm_num)).mp less
  have front : -400 < ((Nat.toDigits 10 digits).length : ℤ) + p := by
    apply power
    rw [zpow_add₀ (by norm_num)]
    exact low.trans_lt (mul_lt_mul_of_pos_right last unit)
  have back : ((Nat.toDigits 10 digits).length : ℤ) - 1 + p < 400 := by
    apply power
    rw [zpow_add₀ (by norm_num)]
    exact (mul_le_mul_of_nonneg_right first unit.le).trans_lt high
  unfold ofDecimal
  dsimp only
  rw [if_neg some.ne', if_neg (by omega), if_neg (by omega), zpow_eq_div]
  split
  · refine ⟨_, 1, one_pos, ?_, rfl⟩
    rw [Int.toNat_of_nonpos (by omega : -p ≤ 0)]
    push_cast [cast_tenTo]
    rw [pow_zero, mul_div_assoc]
  · refine ⟨_, _, tenTo_pos _, ?_, rfl⟩
    rw [Int.toNat_of_nonpos (by omega : p ≤ 0), cast_tenTo, pow_zero, mul_one_div]

end Format

end RoadFlow.Decimal
