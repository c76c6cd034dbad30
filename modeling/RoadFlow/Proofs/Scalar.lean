import RoadFlow.Proofs.Route.Rounding
import RoadFlow.Scalar

/-!
# Two widths

A number of 32 bits is widened by moving its bits where that can be done, and by rounding where it
cannot. Both give the number of 64 bits that rounding gives (`widened_eq`).
-/

namespace RoadFlow

open Float.Model Float.Model.UnpackedFloat Fields Lengths

/-- A mantissa of 24 places has room for all of them among 53. -/
theorem round_of_narrow {m : Nat} {e : Int} (sign : Sign) (low : 2 ^ 23 ≤ m) (high : m < 2 ^ 24)
    (least : -149 ≤ e) :
    ∃ pos, UnpackedFloat.round Format.binary64 sign m e =
      .finite sign (m * 2 ^ 29) (e - 29) pos := by
  have log : m.log2 = 23 := log2_eq low high
  have logs : (m * 2 ^ 29).log2 = 52 := by
    rw [log2_mul_pow (by omega), log]
  have target : max ((m.log2 : Int) + e - 52) (-1074) = e - 29 := by omega
  have amount : (e - (e - 29)).toNat = 29 := by omega
  have stay : (max (((m * 2 ^ 29).log2 : Int) + (e - 29) - 52) (-1074) - (e - 29)).toNat = 0 := by
    omega
  have settled : shiftToTargetExponent Format.binary64 (m * 2 ^ 29) (e - 29) .exact =
      (⟨m * 2 ^ 29, false, false⟩, e - 29) := by
    rw [shiftToTargetExponent_eq, stay, shiftRight_eq]
    simp [Nat.mod_one]
  have positive : m * 2 ^ 29 ≠ 0 := by omega
  refine ⟨Nat.pos_of_ne_zero positive, ?_⟩
  rw [UnpackedFloat.round]
  simp only [targetExponent_eq_max, target, decreaseExponent, Nat.shiftLeft_eq, amount]
  rw [roundWithAccuracy]
  simp only [Nat.cast_ofNat, settled, roundedMantissa_mk, if_true, positive, dite_false]

namespace Widening

variable {b : BitVec Format.binary32.numBits} {c : BitVec Format.binary64.numBits}

theorem single_fields (b : BitVec Format.binary32.numBits) :
    (unpackMantissa b).toNat = b.toNat % 2 ^ 23 ∧
    (unpackExponent b).toNat = b.toNat / 2 ^ 23 % 2 ^ 8 ∧
    (unpackSign b).toNat = b.toNat / 2 ^ 31 % 2 :=
  ⟨mantissa_toNat _ b, exponent_toNat _ b, sign_toNat _ b⟩

theorem double_fields (c : BitVec Format.binary64.numBits) :
    (unpackMantissa c).toNat = c.toNat % 2 ^ 52 ∧
    (unpackExponent c).toNat = c.toNat / 2 ^ 52 % 2 ^ 11 ∧
    (unpackSign c).toNat = c.toNat / 2 ^ 63 % 2 :=
  ⟨mantissa_toNat _ c, exponent_toNat _ c, sign_toNat _ c⟩

theorem sign_eq (same : c.toNat / 2 ^ 63 % 2 = b.toNat / 2 ^ 31 % 2) :
    unpackSign c = unpackSign b :=
  BitVec.eq_of_toNat_eq ((double_fields c).2.2.trans (same.trans (single_fields b).2.2.symm))

theorem unpack_of_zero (zero : b.toNat % 2 ^ 31 = 0) (bits : c.toNat = b.toNat / 2 ^ 31 * 2 ^ 63) :
    unpack Format.binary64 c = rounded Format.binary64 (unpack Format.binary32 b) := by
  have bound : b.toNat < 2 ^ 32 := b.isLt
  obtain ⟨mantissa, exponent, -⟩ := single_fields b
  obtain ⟨wideMantissa, wideExponent, -⟩ := double_fields c
  have sign : unpackSign c = unpackSign b := sign_eq (by omega)
  rw [unpack_zero Format.binary64 (by omega) (by omega),
    unpack_zero Format.binary32 (by omega) (by omega), sign]
  rfl

theorem unpack_of_normal (low : 2 ^ 23 ≤ b.toNat % 2 ^ 31) (high : b.toNat % 2 ^ 31 < 255 * 2 ^ 23)
    (bits : c.toNat = b.toNat / 2 ^ 31 * 2 ^ 63 + b.toNat % 2 ^ 31 * 2 ^ 29 + 896 * 2 ^ 52) :
    unpack Format.binary64 c = rounded Format.binary64 (unpack Format.binary32 b) := by
  have bound : b.toNat < 2 ^ 32 := b.isLt
  obtain ⟨mantissa, exponent, -⟩ := single_fields b
  obtain ⟨wideMantissa, wideExponent, -⟩ := double_fields c
  have sign : unpackSign c = unpackSign b := sign_eq (by omega)
  have least : 0 < (unpackExponent b).toNat ∧ (unpackExponent b).toNat < 255 := by omega
  have wideLeast : 0 < (unpackExponent c).toNat ∧ (unpackExponent c).toNat < 2047 := by omega
  obtain ⟨_, single⟩ := unpack_normal Format.binary32 least.1 least.2
  obtain ⟨_, double⟩ := unpack_normal Format.binary64 wideLeast.1 wideLeast.2
  have low : 2 ^ 23 ≤ 2 ^ 23 + (unpackMantissa b).toNat := Nat.le_add_right ..
  have high : 2 ^ 23 + (unpackMantissa b).toNat < 2 ^ 24 := by omega
  have power : -149 ≤ ((unpackExponent b).toNat : ℤ) - (127 + 23 : ℕ) := by omega
  obtain ⟨_, wide⟩ := round_of_narrow (Sign.ofBitVec (unpackSign b)) low high power
  have biases : Format.binary32.exponentBias = 127 ∧ Format.binary64.exponentBias = 1023 := by
    decide
  rw [single, double, rounded, sign, biases.1, biases.2]
  refine Eq.trans ?_ wide.symm
  simp only [finite.injEq, true_and]
  constructor
  · show 2 ^ 52 + _ = _
    omega
  · show ((_ : ℕ) : ℤ) - (1023 + 52) = _
    omega

end Widening

/-- Widening is rounding to 64 bits, whichever way it is done. -/
theorem widened_eq (x : Float32) :
    widened x = .ofModel (.pack (rounded Format.binary64 x.toModel.unpack)) := by
  have bound : x.toBits.toNat < 2 ^ 32 := x.toBits.toNat_lt
  -- It is enough that the bits of the result are those of the rounded number.
  have taken {u : UInt64} (same : unpack Format.binary64 u.toBitVec =
      rounded Format.binary64 (unpack Format.binary32 x.toBits.toBitVec)) :
      Float.ofBits u = .ofModel (.pack (rounded Format.binary64 x.toModel.unpack)) :=
    congrArg (fun y => Float.ofModel (.pack y)) same
  unfold widened
  dsimp only
  split_ifs with zero normal
  · have none : x.toBits.toNat % 2 ^ 31 = 0 := by simpa using congrArg UInt64.toNat zero
    have bits : (x.toBits.toUInt64 / 0x80000000 * 0x8000000000000000).toNat =
        x.toBits.toNat / 2 ^ 31 * 2 ^ 63 := by
      simp only [UInt64.toNat_mul, UInt64.toNat_div, UInt32.toNat_toUInt64, UInt64.reduceToNat]
      omega
    exact taken (Widening.unpack_of_zero none bits)
  · simp only [UInt64.le_iff_toNat_le, UInt64.lt_iff_toNat_lt, UInt64.toNat_mod,
      UInt32.toNat_toUInt64, UInt64.reduceToNat] at normal
    have low : 2 ^ 23 ≤ x.toBits.toNat % 2 ^ 31 := normal.1
    have high : x.toBits.toNat % 2 ^ 31 < 255 * 2 ^ 23 := normal.2
    have bits : (x.toBits.toUInt64 / 0x80000000 * 0x8000000000000000 +
        x.toBits.toUInt64 % 0x80000000 * 0x20000000 + 0x3800000000000000).toNat =
        x.toBits.toNat / 2 ^ 31 * 2 ^ 63 + x.toBits.toNat % 2 ^ 31 * 2 ^ 29 + 896 * 2 ^ 52 := by
      simp only [UInt64.toNat_add, UInt64.toNat_mul, UInt64.toNat_div, UInt64.toNat_mod,
        UInt32.toNat_toUInt64, UInt64.reduceToNat]
      omega
    exact taken (Widening.unpack_of_normal low high bits)
  · rfl

end RoadFlow
