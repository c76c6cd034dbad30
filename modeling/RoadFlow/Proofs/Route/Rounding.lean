import RoadFlow.Proofs.Route.Lengths

/-!
# Rounded sums in units

A finite cost is a whole number of units, a unit being the least positive number of 64 bits. The sum
of a cost and a length is the exact sum of their units, rounded to the nearest number and cut off at
infinity (`bitsOf_add`). Rounding keeps the order and changes no number, so rounded sums of lengths
never go down and keep their order, though they may become infinite (`growing_lengths`).
-/

namespace RoadFlow

open Float.Model Float.Model.UnpackedFloat Fields PathCost

namespace Lengths

variable {m n a : Nat} {e : Int} {x y z : Float}

theorem log2_eq {m n : Nat} (low : 2 ^ n ≤ m) (high : m < 2 ^ (n + 1)) : m.log2 = n := by
  have pos : m ≠ 0 := by
    have := Nat.two_pow_pos n
    omega
  exact (Nat.log2_eq_iff pos).mpr ⟨low, high⟩

theorem log2_mul_pow (pos : 0 < m) (a : Nat) : (m * 2 ^ a).log2 = m.log2 + a := by
  apply log2_eq
  · rw [Nat.pow_add]
    exact Nat.mul_le_mul_right _ (Nat.log2_self_le (by omega))
  · rw [Nat.add_right_comm, Nat.pow_add]
    exact Nat.mul_lt_mul_of_pos_right Nat.lt_log2_self (Nat.two_pow_pos a)

/-! ## The nearest multiple -/

/-- The number of `2 ^ n` next to `m`, an even one if there are two. -/
def nearest (m n : Nat) : Nat :=
  if 2 * m / 2 ^ n % 2 = 0 then m / 2 ^ n
  else if 2 * m % 2 ^ n = 0 then m / 2 ^ n + m / 2 ^ n % 2
  else m / 2 ^ n + 1

theorem half_eq (m n : Nat) : m / 2 ^ n = 2 * m / 2 ^ n / 2 := by
  rw [Nat.div_div_eq_div_mul, Nat.mul_comm (2 ^ n), Nat.mul_div_mul_left _ _ Nat.two_pos]

theorem le_nearest (m n : Nat) : m / 2 ^ n ≤ nearest m n := by
  unfold nearest
  split_ifs <;> omega

theorem nearest_le (m n : Nat) : nearest m n ≤ m / 2 ^ n + 1 := by
  unfold nearest
  split_ifs <;> omega

theorem nearest_mono {k : Nat} (h : m ≤ k) (n : Nat) : nearest m n ≤ nearest k n := by
  have halves : 2 * m / 2 ^ n ≤ 2 * k / 2 ^ n := Nat.div_le_div_right (by omega)
  have below := Nat.div_add_mod (2 * m) (2 ^ n)
  have above := Nat.div_add_mod (2 * k) (2 ^ n)
  unfold nearest
  rw [half_eq m, half_eq k]
  rcases Nat.lt_or_eq_of_le halves with fewer | same
  · split_ifs <;> omega
  · rw [same] at below ⊢
    split_ifs <;> omega

theorem nearest_mul (k n : Nat) : nearest (k * 2 ^ n) n = k := by
  have power := Nat.two_pow_pos n
  have halves : 2 * (k * 2 ^ n) / 2 ^ n = 2 * k := by
    rw [← Nat.mul_assoc, Nat.mul_div_cancel _ power]
  rw [nearest, halves, if_pos (by omega), Nat.mul_div_cancel _ power]

/-- Only the ratio counts. -/
theorem nearest_scale (m n a : Nat) : nearest (m * 2 ^ a) (n + a) = nearest m n := by
  have power := Nat.two_pow_pos a
  have scaled (k : Nat) : k * 2 ^ a / 2 ^ (n + a) = k / 2 ^ n := by
    rw [Nat.pow_add, Nat.mul_div_mul_right _ _ power]
  have rest : 2 * m * 2 ^ a % 2 ^ (n + a) = 2 * m % 2 ^ n * 2 ^ a := by
    rw [Nat.pow_add, Nat.mul_mod_mul_right]
  have none : 2 * m % 2 ^ n * 2 ^ a = 0 ↔ 2 * m % 2 ^ n = 0 := by
    rw [Nat.mul_eq_zero]
    omega
  simp only [nearest, ← Nat.mul_assoc, scaled, rest, none]

/-! ## Rounding units -/

/-- The bits of the number next to a number of units. -/
def roundedBits (units : Nat) : Nat :=
  min infinityBits ((units.log2 - 52) * 2 ^ 52 + nearest units (units.log2 - 52))

theorem nearest_log2_le (m : Nat) : nearest m (m.log2 - 52) ≤ 2 ^ 53 := by
  have high : m < 2 ^ (53 + (m.log2 - 52)) :=
    Nat.lt_of_lt_of_le Nat.lt_log2_self (Nat.pow_le_pow_right Nat.two_pos (by omega))
  rw [Nat.pow_add] at high
  have := (Nat.div_lt_iff_lt_mul (Nat.two_pow_pos _)).mpr high
  exact (nearest_le _ _).trans this

theorem le_nearest_log2 (large : 52 ≤ m.log2) : 2 ^ 52 ≤ nearest m (m.log2 - 52) := by
  have low : 2 ^ (52 + (m.log2 - 52)) ≤ m := by
    rw [Nat.add_sub_cancel' large]
    apply Nat.log2_self_le
    rintro rfl
    simp at large
  rw [Nat.pow_add] at low
  exact ((Nat.le_div_iff_mul_le (Nat.two_pow_pos _)).mpr low).trans (le_nearest _ _)

theorem roundedBits_mono {k : Nat} (h : m ≤ k) : roundedBits m ≤ roundedBits k := by
  apply min_le_min le_rfl
  rcases Nat.eq_zero_or_pos m with rfl | pos
  · simp [nearest]
  have logs : m.log2 ≤ k.log2 :=
    (Nat.le_log2 (by omega)).mpr ((Nat.log2_self_le (by omega)).trans h)
  rcases Nat.lt_or_eq_of_le (show m.log2 - 52 ≤ k.log2 - 52 by omega) with fewer | same
  · -- The largest mantissa of one exponent is the least of the next.
    have upper := nearest_log2_le m
    have lower := le_nearest_log2 (m := k) (by omega)
    omega
  · rw [same]
    exact Nat.add_le_add_left (nearest_mono h _) _

/-- The units of the finite cost with some bits. -/
def unitsOf (n : Nat) : Nat := mantissaOf n * 2 ^ (n / 2 ^ 52 - 1)

theorem unitsOf_mono {k : Nat} (h : n ≤ k) : unitsOf n ≤ unitsOf k := by
  rcases Nat.lt_or_eq_of_le (show n / 2 ^ 52 - 1 ≤ k / 2 ^ 52 - 1 by omega) with fewer | same
  · have upper : mantissaOf n ≤ 2 ^ 53 := by
      unfold mantissaOf
      split <;> omega
    have lower : 2 ^ 52 ≤ mantissaOf k := by
      unfold mantissaOf
      split <;> omega
    calc unitsOf n ≤ 2 ^ 53 * 2 ^ (n / 2 ^ 52 - 1) := Nat.mul_le_mul_right _ upper
      _ = 2 ^ 52 * 2 ^ (n / 2 ^ 52 - 1 + 1) := by
        rw [← Nat.pow_add, ← Nat.pow_add]
        congr 1
        omega
      _ ≤ 2 ^ 52 * 2 ^ (k / 2 ^ 52 - 1) :=
        Nat.mul_le_mul_left _ (Nat.pow_le_pow_right Nat.two_pos fewer)
      _ ≤ unitsOf k := Nat.mul_le_mul_right _ lower
  · rw [unitsOf, unitsOf, same]
    apply Nat.mul_le_mul_right
    unfold mantissaOf
    split <;> split <;> omega

theorem log2_unitsOf (n : Nat) : (unitsOf n).log2 - 52 = n / 2 ^ 52 - 1 := by
  unfold unitsOf mantissaOf
  split
  · rename_i low
    rw [low, Nat.zero_sub, Nat.pow_zero, Nat.mul_one]
    rcases Nat.eq_zero_or_pos n with rfl | pos
    · rfl
    · have := (Nat.log2_lt (n := n) (k := 52) (by omega)).mpr (by omega)
      omega
  · rw [log2_mul_pow (by omega), log2_eq (n := 52) (by omega) (by omega), Nat.add_sub_cancel_left]

/-- A number is its own nearest. -/
theorem roundedBits_unitsOf (finite : n < infinityBits) : roundedBits (unitsOf n) = n := by
  rw [roundedBits, log2_unitsOf, unitsOf, nearest_mul, mantissaOf]
  split <;> omega

/-! ## Shifting a mantissa -/

/-- What shifting leaves of a mantissa: the bit shifted out last, and whether any other was set. -/
theorem shiftRight_eq (m n : Nat) :
    (ExtendedMantissa.mk m false false) >>> n =
      ⟨m / 2 ^ n, 2 * m / 2 ^ n % 2 != 0, 2 * m % 2 ^ n != 0⟩ := by
  show n.repeat ExtendedMantissa.shiftRightOne _ = _
  induction n with
  | zero =>
    have even : 2 * m % 2 = 0 := Nat.mul_mod_right 2 m
    simp [Nat.repeat, Nat.mod_one, even]
  | succ n ih =>
    have rest : 2 * m % 2 ^ (n + 1) = 2 * m % 2 ^ n + 2 ^ n * (2 * m / 2 ^ n % 2) := by
      rw [Nat.pow_succ, Nat.mod_mul]
    have next : 2 * m / 2 ^ (n + 1) = m / 2 ^ n := by
      rw [Nat.pow_succ, Nat.mul_comm (2 ^ n), Nat.mul_div_mul_left _ _ Nat.two_pos]
    rw [Nat.repeat, ih, ExtendedMantissa.shiftRightOne, rest, next]
    simp only [ExtendedMantissa.mk.injEq, true_and]
    refine ⟨by rw [Nat.div_div_eq_div_mul, Nat.pow_succ], ?_⟩
    have power := Nat.two_pow_pos n
    rcases Nat.mod_two_eq_zero_or_one (2 * m / 2 ^ n) with bit | bit
    · simp [bit]
    · simp [bit]

theorem roundedMantissa_mk (q : Nat) (round sticky : Bool) :
    (ExtendedMantissa.mk q round sticky).roundedMantissa =
      if round = false then q else if sticky = false then q + q % 2 else q + 1 := by
  cases round <;> cases sticky <;> rfl

theorem roundedMantissa_shiftRight (m n : Nat) :
    ((ExtendedMantissa.mk m false false) >>> n).roundedMantissa = nearest m n := by
  rw [shiftRight_eq, roundedMantissa_mk, nearest]
  simp only [bne_eq_false_iff_eq]

/-! ## Rounding a mantissa -/

theorem targetExponent_eq_max (m : Nat) (e : Int) :
    Format.binary64.targetExponent (totalExponent m e) = max (m.log2 + e - 52) (-1074) := by
  rw [totalExponent, Format.targetExponent, Format.minExponent, Format.mantissaBits]
  simp only [Nat.reduceSub, Int.reducePow, Int.reduceSub]
  omega

theorem shiftToTargetExponent_eq (m : Nat) (e : Int) :
    shiftToTargetExponent Format.binary64 m e .exact =
      ((ExtendedMantissa.mk m false false) >>> (max (m.log2 + e - 52) (-1074) - e).toNat,
        e + ((max (m.log2 + e - 52) (-1074) - e).toNat : Int)) := by
  rw [shiftToTargetExponent, targetExponent_eq_max]
  rfl

theorem biasedExponent_eq (least : -1074 ≤ e) :
    (e + (Format.binary64.exponentBias : Int) + (52 : Nat)).toNat = (e + 1074).toNat + 1 := by
  simp only [Format.exponentBias]
  omega

/-- The bits of a mantissa that needs no rounding. -/
theorem bitsOf_pack (pos : 0 < m) (small : m < 2 ^ 53) (least : -1074 ≤ e)
    (full : 2 ^ 52 ≤ m ∨ e = -1074) :
    bitsOf (.ofModel (.pack (.finite .positive m e pos))) =
      min infinityBits ((e + 1074).toNat * 2 ^ 52 + m) := by
  have bits : bitsOf (.ofModel (.pack (.finite .positive m e pos))) =
      (UnpackedFloat.pack Format.binary64 (.finite .positive m e pos)).toNat := rfl
  rw [bits, UnpackedFloat.pack]
  dsimp only
  rw [biasedExponent_eq least]
  unfold infinityBits
  split
  · rename_i beyond
    rw [packedInfinity, packComponents_toNat]
    simp at beyond ⊢
    omega
  · rename_i room
    simp at room
    split
    · rename_i digits
      simp [Format.mantissaBits] at digits
      have low : 2 ^ 52 ≤ m := by
        rw [← show m.log2 = 52 by omega]
        exact Nat.log2_self_le pos.ne'
      have field : m % 2 ^ 52 = m - 2 ^ 52 := by omega
      have fits : (e + 1074).toNat + 1 < 2 ^ 11 := by omega
      rw [packComponents_toNat, BitVec.toNat_ofNat, BitVec.toNat_ofNat, field,
        Nat.mod_eq_of_lt fits]
      omega
    · rename_i digits
      simp [Format.mantissaBits] at digits
      have low : m < 2 ^ 52 := by
        by_contra high
        exact digits (by rw [log2_eq (n := 52) (by omega) (by omega)])
      rw [packComponents_toNat]
      simp only [BitVec.toNat_ofNat]
      simp
      omega

/-- A mantissa that fits is left as it is, and one that rounding has carried over loses a digit. -/
theorem bitsOf_settled (pos : 0 < m) (small : m ≤ 2 ^ 53) (least : -1074 ≤ e)
    (full : 2 ^ 52 ≤ m ∨ e = -1074) :
    ∃ (m' : Nat) (e' : Int) (pos' : 0 < m'),
      shiftToTargetExponent Format.binary64 m e .exact = (⟨m', false, false⟩, e') ∧
      bitsOf (.ofModel (.pack (.finite .positive m' e' pos'))) =
        min infinityBits ((e + 1074).toNat * 2 ^ 52 + m) := by
  rcases Nat.lt_or_eq_of_le small with fits | carried
  · have log := (Nat.log2_lt (n := m) (k := 53) (by omega)).mpr fits
    have stay : (max ((m.log2 : Int) + e - 52) (-1074) - e).toNat = 0 := by omega
    refine ⟨m, e, pos, ?_, bitsOf_pack pos fits least full⟩
    rw [shiftToTargetExponent_eq, stay, shiftRight_eq]
    simp [Nat.mod_one]
  · subst carried
    have once : (max (((2 ^ 53 : Nat).log2 : Int) + e - 52) (-1074) - e).toNat = 1 := by
      rw [Nat.log2_two_pow]
      omega
    refine ⟨2 ^ 52, e + 1, by decide, ?_, ?_⟩
    · rw [shiftToTargetExponent_eq, once, shiftRight_eq]
      rfl
    · rw [bitsOf_pack _ (by decide) (by omega) (.inl le_rfl)]
      omega

/-- A mantissa above a target exponent is rounded to it. -/
theorem bitsOf_roundWithAccuracy (pos : 0 < m) (least : -1074 ≤ e)
    (above : e ≤ max (m.log2 + e - 52) (-1074)) :
    bitsOf (.ofModel (.pack (roundWithAccuracy Format.binary64 .positive m e .exact))) =
      roundedBits (m * 2 ^ (e + 1074).toNat) := by
  generalize target_eq : max ((m.log2 : Int) + e - 52) (-1074) = target at above
  have logs : (m * 2 ^ (e + 1074).toNat).log2 - 52 = (target - e).toNat + (e + 1074).toNat := by
    rw [log2_mul_pow pos]
    omega
  have rounded : nearest m (target - e).toNat =
      nearest (m * 2 ^ (e + 1074).toNat) ((m * 2 ^ (e + 1074).toNat).log2 - 52) := by
    rw [logs, nearest_scale]
  have full : 2 ^ 52 ≤ nearest m (target - e).toNat ∨ target = -1074 := by
    by_cases floor : target = -1074
    · exact .inr floor
    · have amount : (target - e).toNat = m.log2 - 52 := by omega
      rw [amount]
      exact .inl (le_nearest_log2 (by omega))
  have positive : 0 < nearest m (target - e).toNat := by
    rcases full with full | floor
    · omega
    · have none : (target - e).toNat = 0 := by omega
      have same := nearest_mul m 0
      rw [Nat.pow_zero, Nat.mul_one] at same
      rw [none, same]
      exact pos
  obtain ⟨m', e', pos', settled, bits⟩ := bitsOf_settled positive
    (rounded ▸ nearest_log2_le _) (by omega) full
  have shifted : e + ((target - e).toNat : Int) = target := by omega
  rw [roundWithAccuracy]
  simp only [shiftToTargetExponent_eq m e, target_eq, roundedMantissa_shiftRight, shifted, settled,
    pos'.ne', dite_false]
  rw [bits, roundedBits, ← rounded, logs]
  congr 3
  omega

theorem bitsOf_round (pos : 0 < m) (least : -1074 ≤ e) :
    bitsOf (.ofModel (.pack (UnpackedFloat.round Format.binary64 .positive m e))) =
      roundedBits (m * 2 ^ (e + 1074).toNat) := by
  rw [UnpackedFloat.round]
  simp only [targetExponent_eq_max, decreaseExponent, Nat.shiftLeft_eq]
  generalize amount_eq : (e - max ((m.log2 : Int) + e - 52) (-1074)).toNat = amount
  have log := log2_mul_pow pos amount
  rw [bitsOf_roundWithAccuracy (Nat.mul_pos pos (Nat.two_pow_pos _)) (by omega) (by omega)]
  congr 1
  rw [Nat.mul_assoc, ← Nat.pow_add]
  congr 2
  omega

/-! ## Adding a length -/

theorem exponentOf_ge (n : Nat) : -1074 ≤ exponentOf n := by
  unfold exponentOf
  omega

theorem unitsOf_eq (n : Nat) : unitsOf n = mantissaOf n * 2 ^ (exponentOf n + 1074).toNat := by
  rw [unitsOf, exponentOf]
  congr 2
  omega

/-- Unpacking and packing change nothing. -/
theorem bitsOf_pack_unpack (pos : 0 < mantissaOf n) (finite : n < infinityBits) :
    bitsOf (.ofModel (.pack (.finite .positive (mantissaOf n) (exponentOf n) pos))) = n := by
  rw [bitsOf_pack pos ?_ (exponentOf_ge n) ?_]
  · unfold mantissaOf exponentOf infinityBits at *
    split <;> omega
  · unfold mantissaOf
    split <;> omega
  · unfold mantissaOf exponentOf
    split <;> omega

/-- Bits that stand for a positive number have no sign, and lie below those of infinity. -/
theorem bitsOf_positive {pos : 0 < m} (h : x.toModel.unpack = .finite .positive m e pos) :
    bitsOf x ≠ 0 ∧ bitsOf x < infinityBits := by
  have exponent := exponent_toNat Format.binary64 x.toModel.toBits.toBitVec
  have sign := sign_toNat Format.binary64 x.toModel.toBits.toBitVec
  have bits : x.toModel.toBits.toBitVec.toNat = bitsOf x := rfl
  have width : bitsOf x < 2 ^ 64 := x.toModel.toBits.toBitVec.isLt
  rw [bits] at exponent sign
  have nonzero : bitsOf x ≠ 0 := by
    intro zero
    obtain rfl : x = 0 := bitsOf_injective zero
    have none : (0 : Float).toModel.unpack = .zero .positive := by rfl
    rw [none] at h
    cases h
  rw [Float.Model.unpack, UnpackedFloat.unpack] at h
  have plain : @unpackExponent Format.binary64 x.toModel.toBits.toBitVec ≠ -1#_ ∧
      Sign.ofBitVec (@unpackSign Format.binary64 x.toModel.toBits.toBitVec) = .positive := by
    split at h
    · split at h <;> cases h
    · rename_i limited
      refine ⟨limited, ?_⟩
      split at h
      · split at h
        · cases h
        · exact (UnpackedFloat.finite.inj h).1
      · exact (UnpackedFloat.finite.inj h).1
  obtain ⟨limited, positive⟩ := plain
  have unsigned : @unpackSign Format.binary64 x.toModel.toBits.toBitVec = 0#1 := by
    by_contra set
    rw [Sign.ofBitVec, if_neg set] at positive
    cases positive
  rw [ne_eq, ← BitVec.toNat_inj, exponent] at limited
  rw [← BitVec.toNat_inj, sign] at unsigned
  simp at limited unsigned
  refine ⟨nonzero, ?_⟩
  unfold infinityBits
  omega

/-- A length that is not zero is a finite cost. A zero may have the sign of a negative number. -/
theorem zero_or_positive (h : Builder.isLength z = true) :
    (∃ s, z.toModel.unpack = .zero s) ∨ bitsOf z ≠ 0 ∧ bitsOf z < infinityBits := by
  rcases length_cases h with zero | ⟨m, e, pos, finite⟩
  · exact .inl zero
  · exact .inr (bitsOf_positive finite)

/-- Some units are added, whatever the cost that a length is added to. -/
theorem bitsOf_add (h : Builder.isLength z = true) :
    ∃ units, ∀ {x}, IsCost x → bitsOf x < infinityBits →
      bitsOf (x + z) = roundedBits (unitsOf (bitsOf x) + units) := by
  have sum (x : Float) : x + z = .ofModel (.pack
      (UnpackedFloat.add Format.binary64 x.toModel.unpack z.toModel.unpack)) := rfl
  rcases zero_or_positive h with ⟨s, zero⟩ | ⟨away, finite⟩
  · refine ⟨0, fun {x} hx below => ?_⟩
    rw [sum, zero, unpack_cost hx, if_neg below.ne, Nat.add_zero, roundedBits_unitsOf below]
    split
    · rename_i none
      cases s <;> exact none.symm
    · exact bitsOf_pack_unpack _ below
  · refine ⟨unitsOf (bitsOf z), fun {x} hx below => ?_⟩
    rw [sum, unpack_cost finite.le, if_neg finite.ne, dif_neg away, unpack_cost hx, if_neg below.ne]
    split
    · rename_i none
      have nothing : unitsOf 0 = 0 := by decide
      rw [none, nothing, Nat.zero_add, roundedBits_unitsOf finite]
      exact bitsOf_pack_unpack _ finite
    · rename_i some
      have pos := Nat.mul_pos (mantissaOf_pos some) (Nat.two_pow_pos (exponentOf (bitsOf x) -
        min (exponentOf (bitsOf x)) (exponentOf (bitsOf z))).toNat)
      rw [← Nat.shiftLeft_eq] at pos
      rw [UnpackedFloat.add]
      simp only [Sign.apply, decreaseExponent]
      rw [← Int.natCast_add, normalize_pos (Nat.add_pos_left pos _), bitsOf_round]
      · congr 1
        rw [Nat.add_mul, Nat.shiftLeft_eq, Nat.shiftLeft_eq, Nat.mul_assoc, Nat.mul_assoc,
          ← Nat.pow_add, ← Nat.pow_add, unitsOf_eq, unitsOf_eq]
        have leftLeast := exponentOf_ge (bitsOf x)
        have rightLeast := exponentOf_ge (bitsOf z)
        congr 3 <;> omega
      · exact Nat.add_pos_left pos _
      · exact le_min (exponentOf_ge _) (exponentOf_ge _)

theorem infinity_add (hx : bitsOf x = infinityBits) (h : Builder.isLength z = true) :
    x + z = x := by
  obtain rfl : x = unreached := bitsOf_injective (hx.trans bitsOf_unreached.symm)
  have sum : (unreached : Float) + z = .ofModel (.pack (UnpackedFloat.add Format.binary64
      (unreached : Float).toModel.unpack z.toModel.unpack)) := rfl
  have infinite : (unreached : Float).toModel.unpack = .infinity .positive := by rfl
  rw [sum, infinite]
  rcases length_cases h with ⟨s, zero⟩ | ⟨m, e, pos, finite⟩
  · rw [zero]
    rfl
  · rw [finite]
    rfl

/-- A sum is no less than the cost that a length is added to. -/
theorem bitsOf_le_add (hx : IsCost x) (h : Builder.isLength z = true) :
    bitsOf x ≤ bitsOf (x + z) := by
  rcases Nat.lt_or_eq_of_le hx with below | infinite
  · obtain ⟨units, add⟩ := bitsOf_add h
    rw [add hx below]
    calc bitsOf x = roundedBits (unitsOf (bitsOf x)) := (roundedBits_unitsOf below).symm
      _ ≤ roundedBits (unitsOf (bitsOf x) + units) := roundedBits_mono (Nat.le_add_right _ _)
  · rw [infinity_add infinite h]

/-- Adding a length to two costs keeps their order. -/
theorem bitsOf_add_mono (hx : IsCost x) (hy : IsCost y) (h : Builder.isLength z = true)
    (le : bitsOf x ≤ bitsOf y) : bitsOf (x + z) ≤ bitsOf (y + z) := by
  rcases Nat.lt_or_eq_of_le hy with below | infinite
  · obtain ⟨units, add⟩ := bitsOf_add h
    rw [add hx (Nat.lt_of_le_of_lt le below), add hy below]
    exact roundedBits_mono (Nat.add_le_add_right (unitsOf_mono le) _)
  · rw [infinity_add infinite h, infinite]
    exact isCost_add hx h

end Lengths

open Lengths in
/-- Rounded sums of lengths never go down, and keep their order. -/
theorem growing_of_isLength {net : Network} {measure : EdgeId → Float} {source : NodeId}
    (lengths : ∀ {e edge}, net.edge? e = some edge → Builder.isLength (measure e) = true) :
    CostOrder.Growing net measure source where
  toCostOrder := costOrder_of_isCost (isCost_of_attains lengths)
  grows := by
    intro a e edge ha found
    have cost := isCost_of_attains lengths ha
    rw [atMost_iff_bits cost (isCost_add cost (lengths found))]
    exact bitsOf_le_add cost (lengths found)
  mono := by
    intro a b e edge ha hb found le
    have costA := isCost_of_attains lengths ha
    have costB := isCost_of_attains lengths hb
    rw [atMost_iff_bits costA costB] at le
    rw [atMost_iff_bits (isCost_add costA (lengths found)) (isCost_add costB (lengths found))]
    exact bitsOf_add_mono costA costB (lengths found) le

theorem growing_lengths {net : Network} (sound : net.Sound) (source : NodeId) :
    CostOrder.Growing net net.lengthOf source :=
  growing_of_isLength (Lengths.isLength_lengthOf sound)

end RoadFlow
