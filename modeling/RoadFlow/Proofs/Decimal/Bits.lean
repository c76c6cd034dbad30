import RoadFlow.Decimal.Format
import RoadFlow.Proofs.Decimal.Nearest

/-!
# Bits of a format

The bits of a number hold its sign, its exponent and the places of its mantissa, and are put together
from them again (`bits_of_finite`).
-/

namespace RoadFlow.Decimal.Format

variable {f : Format} {bits mantissa : ℕ} {negative : Bool} {power : ℤ}

/-- The sign bit, or none. -/
def signOf (f : Format) (negative : Bool) : ℕ := if negative then f.signBit else 0

theorem signOf_add_magnitude (bound : bits < 2 * f.signBit) :
    f.signOf (decide (f.signBit ≤ bits)) + bits % f.signBit = bits := by
  unfold signOf
  by_cases negative : f.signBit ≤ bits
  · have rest : bits % f.signBit = bits - f.signBit := by
      rw [Nat.mod_eq_sub_mod negative, Nat.mod_eq_of_lt (by omega)]
    simp only [negative, decide_true, if_true, rest]
    omega
  · rw [Nat.mod_eq_of_lt (Nat.lt_of_not_le negative)]
    simp [negative]

theorem bits_of_infinite (bound : bits < 2 * f.signBit)
    (found : f.exact bits = .infinite negative) : bits = f.signOf negative + f.infinity := by
  have whole := signOf_add_magnitude bound
  have parts := Nat.div_add_mod' (bits % f.signBit) (twoTo f.fraction)
  unfold exact at found
  dsimp only at found
  split at found
  · rename_i field
    split at found
    · rename_i stored
      cases found
      rw [field, stored, Nat.add_zero] at parts
      rw [infinity, parts, whole]
    · cases found
  · split at found <;> cases found

/-- The bits of a finite number are those of its sign, its mantissa and its exponent. -/
theorem bits_of_finite (bound : bits < 2 * f.signBit)
    (found : f.exact bits = .finite negative mantissa power) :
    bits = f.signOf negative + (mantissa + (power - f.lowest).toNat * twoTo f.fraction) ∧
      mantissa + (power - f.lowest).toNat * twoTo f.fraction ≤ f.infinity ∧
      f.Normal mantissa power := by
  have whole := signOf_add_magnitude bound
  have parts := Nat.div_add_mod' (bits % f.signBit) (twoTo f.fraction)
  have stored := Nat.mod_lt (bits % f.signBit) (twoTo_pos f.fraction)
  have double : 2 ^ (f.fraction + 1) = 2 * twoTo f.fraction := Nat.pow_succ'
  have sign : f.signBit = twoTo f.fraction * twoTo f.exponent := Nat.pow_add ..
  have size : bits % f.signBit < f.signBit := Nat.mod_lt bits (twoTo_pos _)
  have field := Nat.div_lt_of_lt_mul (size.trans_eq sign)
  unfold exact at found
  dsimp only at found
  split at found
  · split at found <;> cases found
  · rename_i finite
    have largest : bits % f.signBit ≤ f.infinity := by
      have last : bits % f.signBit / twoTo f.fraction + 1 ≤ twoTo f.exponent - 1 := by omega
      have rows := Nat.mul_le_mul_right (twoTo f.fraction) last
      rw [Nat.add_mul, Nat.one_mul] at rows
      unfold infinity
      omega
    split at found
    · rename_i low
      cases found
      rw [low, Nat.zero_mul, Nat.zero_add] at parts
      rw [sub_self, Int.toNat_zero, Nat.zero_mul, Nat.add_zero, parts]
      refine ⟨whole.symm, largest, ?_, le_rfl, fun above => absurd above (lt_irrefl _)⟩
      omega
    · rename_i high
      cases found
      obtain ⟨k, exponent⟩ := Nat.exists_eq_succ_of_ne_zero high
      have raised : f.lowest + ((k + 1 - 1 : ℕ) : ℤ) - f.lowest = k := by simp
      have sum : bits % f.signBit % twoTo f.fraction + twoTo f.fraction + k * twoTo f.fraction =
          bits % f.signBit := by
        rw [exponent, Nat.succ_mul] at parts
        omega
      rw [exponent, raised, Int.toNat_natCast, sum]
      refine ⟨whole.symm, largest, ?_, ?_, fun _ => Nat.le_add_left ..⟩
      · omega
      · simp

end RoadFlow.Decimal.Format
