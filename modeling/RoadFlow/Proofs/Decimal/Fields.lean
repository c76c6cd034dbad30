import Mathlib

/-!
# Fields of packed numbers

The mantissa, the exponent and the sign of a packed number are places of its bits, and what it stands
for follows from them (`unpack_normal`, `unpack_zero`).
-/

namespace RoadFlow.Fields

open Float.Model Float.Model.UnpackedFloat

variable (spec : Format)

theorem mantissa_toNat (b : BitVec spec.numBits) :
    (unpackMantissa b).toNat = b.toNat % 2 ^ spec.mantissaBitsWithoutImplicit := by
  have some := spec.hm
  simp [unpackMantissa, BitVec.extractLsb_toNat, Nat.sub_add_cancel some]

theorem exponent_toNat (b : BitVec spec.numBits) :
    (unpackExponent b).toNat =
      b.toNat / 2 ^ spec.mantissaBitsWithoutImplicit % 2 ^ spec.exponentBits := by
  have some := spec.he
  have length : spec.mantissaBitsWithoutImplicit + spec.exponentBits - 1 -
      spec.mantissaBitsWithoutImplicit + 1 = spec.exponentBits := by omega
  simp [unpackExponent, BitVec.extractLsb_toNat, Nat.shiftRight_eq_div_pow, length]

theorem sign_toNat (b : BitVec spec.numBits) :
    (unpackSign b).toNat =
      b.toNat / 2 ^ (spec.mantissaBitsWithoutImplicit + spec.exponentBits) % 2 := by
  simp [unpackSign, BitVec.extractLsb_toNat, Nat.shiftRight_eq_div_pow]

/-- The place that is not written stands before those that are. -/
theorem mantissa_with_first (b : BitVec spec.numBits) :
    ((1#1 : BitVec 1) ++ unpackMantissa b).toNat =
      2 ^ spec.mantissaBitsWithoutImplicit + (unpackMantissa b).toNat := by
  rw [BitVec.toNat_append, ← Nat.one_shiftLeft]
  exact (Nat.shiftLeft_add_eq_or_of_lt (unpackMantissa b).isLt 1).symm

/-- A number with all its places has one before those that are written. -/
theorem unpack_normal {b : BitVec spec.numBits} (low : 0 < (unpackExponent b).toNat)
    (high : (unpackExponent b).toNat < 2 ^ spec.exponentBits - 1) :
    ∃ pos, unpack spec b = .finite (Sign.ofBitVec (unpackSign b))
      (2 ^ spec.mantissaBitsWithoutImplicit + (unpackMantissa b).toNat)
      ((unpackExponent b).toNat - (spec.exponentBias + spec.mantissaBitsWithoutImplicit)) pos := by
  have top : unpackExponent b ≠ -1#_ := by
    intro same
    rw [same, BitVec.neg_one_eq_allOnes, BitVec.toNat_allOnes] at high
    exact Nat.lt_irrefl _ high
  have bottom : unpackExponent b ≠ 0#_ := by
    intro same
    rw [same] at low
    exact Nat.lt_irrefl _ low
  rw [← mantissa_with_first, UnpackedFloat.unpack]
  rw [if_neg top, if_neg bottom]
  exact ⟨_, rfl⟩

theorem unpack_zero {b : BitVec spec.numBits} (exponent : (unpackExponent b).toNat = 0)
    (mantissa : (unpackMantissa b).toNat = 0) :
    unpack spec b = .zero (Sign.ofBitVec (unpackSign b)) := by
  have some := spec.he
  have bottom : unpackExponent b = 0#_ := BitVec.eq_of_toNat_eq exponent
  have blank : unpackMantissa b = 0#_ := BitVec.eq_of_toNat_eq mantissa
  have top : unpackExponent b ≠ -1#_ := by
    intro same
    rw [same, BitVec.neg_one_eq_allOnes, BitVec.toNat_allOnes] at exponent
    have large : spec.exponentBits < 2 ^ spec.exponentBits := Nat.lt_two_pow_self
    omega
  rw [UnpackedFloat.unpack]
  rw [if_neg top, if_pos bottom, dif_pos blank]

end RoadFlow.Fields
