import Mathlib
import RoadFlow.Csv.Table
import RoadFlow.Fit.Settings
import RoadFlow.Proofs.Decimal.Bits
import RoadFlow.Proofs.Decimal.Fields
import RoadFlow.Proofs.Decimal.Text

/-!
# Single-precision numbers

The bits of a number are taken apart as the arithmetic does it (`exact_single`), and its text is read
as the number (`read_singleText`).
-/

namespace RoadFlow.Single

open Float.Model Float.Model.UnpackedFloat Fields

/-- A number that the arithmetic has taken apart. -/
def exactOf : UnpackedFloat → Decimal.Format.Exact
  | .notANumber => .nan
  | .infinity s => .infinite (s == .negative)
  | .zero s => .finite (s == .negative) 0 Decimal.Format.single.lowest
  | .finite s m e _ => .finite (s == .negative) m e

theorem exactOf_unpack (b : BitVec Format.binary32.numBits) :
    exactOf (unpack Format.binary32 b) =
      let negative := Sign.ofBitVec (unpackSign b) == .negative
      if (unpackExponent b).toNat = 255 then
        if (unpackMantissa b).toNat = 0 then .infinite negative else .nan
      else if (unpackExponent b).toNat = 0 then
        .finite negative (unpackMantissa b).toNat Decimal.Format.single.lowest
      else .finite negative ((unpackMantissa b).toNat + 2 ^ 23)
        (Decimal.Format.single.lowest + ((unpackExponent b).toNat - 1 : ℕ)) := by
  have top : unpackExponent b = -1#_ ↔ (unpackExponent b).toNat = 255 := BitVec.toNat_inj.symm
  have low : unpackExponent b = 0#_ ↔ (unpackExponent b).toNat = 0 := BitVec.toNat_inj.symm
  have blank : unpackMantissa b = 0#_ ↔ (unpackMantissa b).toNat = 0 := BitVec.toNat_inj.symm
  have least : Decimal.Format.single.lowest = -149 := by decide
  rw [least]
  unfold UnpackedFloat.unpack
  dsimp only
  by_cases infinite : (unpackExponent b).toNat = 255
  · rw [if_pos (top.mpr infinite), if_pos infinite]
    by_cases none : (unpackMantissa b).toNat = 0
    · rw [if_pos (blank.mpr none), if_pos none]
      rfl
    · rw [if_neg (mt blank.mp none), if_neg none]
      rfl
  · rw [if_neg (mt top.mp infinite), if_neg infinite]
    by_cases zero : (unpackExponent b).toNat = 0
    · rw [if_pos (low.mpr zero), if_pos zero]
      by_cases none : (unpackMantissa b).toNat = 0
      · rw [dif_pos (blank.mpr none), none]
        rfl
      · rw [dif_neg (mt blank.mp none), zero]
        rfl
    · rw [if_neg (mt low.mp zero), if_neg zero]
      have joined : ((1#1 : BitVec 1) ++ unpackMantissa b).toNat = (unpackMantissa b).toNat + 2 ^ 23 :=
        (mantissa_with_first _ b).trans (Nat.add_comm _ _)
      have power : ((unpackExponent b).toNat : ℤ) - (127 + 23) =
          -149 + ((unpackExponent b).toNat - 1 : ℕ) := by omega
      rw [← joined, ← power]
      rfl

theorem negative_iff {b : BitVec Format.binary32.numBits} :
    (Sign.ofBitVec (unpackSign b) == .negative) = decide (2 ^ 31 ≤ b.toNat) := by
  have sign : (unpackSign b).toNat = b.toNat / 2 ^ 31 % 2 := sign_toNat _ b
  have bound : b.toNat < 2 ^ 32 := b.isLt
  unfold Sign.ofBitVec
  split
  · rename_i zero
    rw [zero] at sign
    have low : ¬ 2 ^ 31 ≤ b.toNat := by
      have sign : 0 = b.toNat / 2 ^ 31 % 2 := sign
      omega
    rw [decide_eq_false low]
    rfl
  · rename_i other
    have high : 2 ^ 31 ≤ b.toNat := by
      by_contra low
      apply other
      apply BitVec.eq_of_toNat_eq
      rw [sign]
      show b.toNat / 2 ^ 31 % 2 = 0
      omega
    rw [decide_eq_true high]
    rfl

theorem exact_single (x : Float32) :
    Decimal.Format.single.exact x.toBits.toNat = exactOf x.toModel.unpack := by
  have mantissa := mantissa_toNat Format.binary32 x.toModel.toBits.toBitVec
  have exponent := exponent_toNat Format.binary32 x.toModel.toBits.toBitVec
  have bits : x.toModel.toBits.toBitVec.toNat = x.toBits.toNat := rfl
  have bound : x.toBits.toNat < 2 ^ 32 := x.toModel.toBits.toNat_lt
  unfold Float32.Model.unpack
  rw [exactOf_unpack, negative_iff, mantissa, exponent, bits]
  have stored : x.toBits.toNat % 2 ^ 31 % 2 ^ 23 = x.toBits.toNat % 2 ^ 23 := by omega
  have field : x.toBits.toNat % 2 ^ 31 / 2 ^ 23 = x.toBits.toNat / 2 ^ 23 % 2 ^ 8 := by omega
  have apart : Decimal.Format.single.exact x.toBits.toNat =
      let negative := decide (2 ^ 31 ≤ x.toBits.toNat)
      let stored := x.toBits.toNat % 2 ^ 31 % 2 ^ 23
      let field := x.toBits.toNat % 2 ^ 31 / 2 ^ 23
      if field = 255 then if stored = 0 then .infinite negative else .nan
      else if field = 0 then .finite negative stored Decimal.Format.single.lowest
      else .finite negative (stored + 2 ^ 23) (Decimal.Format.single.lowest + (field - 1 : ℕ)) := rfl
  rw [apart, stored, field]

/-- What is not a number has one pattern of bits. -/
theorem bits_of_nan {x : Float32} (nan : Decimal.Format.single.exact x.toBits.toNat = .nan) :
    x.toBits.toNat = Decimal.Format.single.nanBits := by
  rw [exact_single] at nan
  unfold Float32.Model.unpack at nan
  rw [exactOf_unpack] at nan
  dsimp only at nan
  split at nan
  · rename_i top
    split at nan
    · cases nan
    · rename_i filled
      have bits := x.toModel.valid.eq_packedNaN (BitVec.toNat_inj.mp top) (mt (congrArg _) filled)
      exact congrArg BitVec.toNat bits
  · split at nan <;> cases nan

end RoadFlow.Single

namespace RoadFlow

open Decimal Decimal.Format Single

/-- What rounds to a single-precision number is neither too large nor too small for a decimal. -/
theorem Single.inRange {mantissa : ℕ} {power : ℤ} (some : 0 < mantissa)
    (normal : single.Normal mantissa power) (most : power ≤ 106) {v : ℚ}
    (reads : single.Reads mantissa power v) :
    (10 : ℚ) ^ (-400 : ℤ) ≤ v ∧ v < (10 : ℚ) ^ (400 : ℤ) := by
  have unit : (0 : ℚ) < 2 ^ power := by positivity
  have one : (1 : ℚ) ≤ mantissa := by exact_mod_cast some
  have below : (mantissa : ℚ) + 1 ≤ 2 ^ 24 := by exact_mod_cast normal.below
  have reach := reach_le single mantissa power
  have low : 1 / 2 ≤ v / 2 ^ power := by linarith [reads.low]
  have high : v / 2 ^ power ≤ 2 ^ 24 := by linarith [reads.high]
  rw [le_div_iff₀ unit] at low
  rw [div_le_iff₀ unit] at high
  have least : -149 ≤ power := normal.lowest
  have small : (10 : ℚ) ^ (-46 : ℤ) ≤ 1 / 2 * 2 ^ (-149 : ℤ) := by norm_num
  have large : (2 : ℚ) ^ 24 * 2 ^ (106 : ℤ) < 10 ^ (40 : ℤ) := by norm_num
  have ten : (1 : ℚ) ≤ 10 := by norm_num
  constructor
  · calc (10 : ℚ) ^ (-400 : ℤ) ≤ 10 ^ (-46 : ℤ) := zpow_le_zpow_right₀ ten (by decide)
      _ ≤ 1 / 2 * 2 ^ (-149 : ℤ) := small
      _ ≤ 1 / 2 * 2 ^ power := by gcongr
      _ ≤ v := low
  · calc v ≤ 2 ^ 24 * 2 ^ power := high
      _ ≤ 2 ^ 24 * 2 ^ (106 : ℤ) := by gcongr
      _ < 10 ^ (40 : ℤ) := large
      _ ≤ 10 ^ (400 : ℤ) := zpow_le_zpow_right₀ ten (by decide)

/-- A number is read back from its text. -/
theorem read_singleText (x : Float32) :
    single.read (singleText x).toList = .ok x.toBits.toNat := by
  have bound : x.toBits.toNat < 2 * single.signBit := x.toModel.toBits.toNat_lt
  unfold singleText plain
  cases found : single.exact x.toBits.toNat with
  | nan => rw [read_nan, bits_of_nan found]
  | infinite negative =>
    dsimp only
    rw [read_infinity, bits_of_infinite bound found, signOf]
  | finite negative mantissa power =>
    obtain ⟨bits, largest, normal⟩ := bits_of_finite bound found
    rw [bits, signOf]
    cases mantissa with
    | zero =>
      have lowest : power = single.lowest := by
        apply le_antisymm _ normal.lowest
        by_contra above
        exact absurd (normal.leading (not_le.mp above)) (by decide)
      rw [lowest, sub_self]
      have number : unsignedNumber? "0".toList = some (0, 0) := rfl
      exact read_signed (by rfl) (by decide) number
    | succ m =>
      have most : power ≤ 106 := by
        have least : single.lowest = -149 := by decide
        have range : m + 1 + (power - single.lowest).toNat * 2 ^ 23 ≤ 255 * 2 ^ 23 := largest
        omega
      have short : 2 * (m + 1) < 10 ^ 16 := by
        have below : m + 1 < 2 ^ 24 := normal.below
        omega
      exact read_shortest m.succ_pos short normal largest
        (fun _ reads => Single.inRange m.succ_pos normal most reads) .up negative

/-- A column of single-precision numbers reads a number back from its text. -/
theorem readSingle_singleText (x : Float32) :
    Csv.Kind.read .single (singleText x) = .ok x := by
  have bits : x.toBits.toNat.toUInt32 = x.toBits := UInt32.ofNat_toNat
  rw [Csv.Kind.read, read_singleText]
  dsimp only
  rw [bits, Float32.ofBits_toBits]

end RoadFlow
