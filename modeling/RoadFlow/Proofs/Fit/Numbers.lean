import RoadFlow.Proofs.Fit.Single
import RoadFlow.Proofs.Matrix.Product
import RoadFlow.Proofs.Route.Rounding

/-!
# Exact and rounded numbers

What is proved of fits over any numbers holds for real ones, which stand for arithmetic without
rounding, and for those of 32 bits. Of the latter a sum that began at zero is never a negative zero,
so adding zero leaves it as it is (`Single.add_zero_add`).
-/

namespace RoadFlow

/-- Numbers of which a sum that began at zero is left as it is by adding zero. -/
class Scalar.Neutral (α : Type) [Scalar α] : Prop where
  zero_add_zero : (0 : α) + 0 = 0
  add_zero_add {x : α} : x + 0 = x → ∀ y, x + y + 0 = x + y

/-- In a sum that began at zero, terms that are zero may be left out. -/
theorem Scalar.Neutral.foldl_filter {ι α : Type} [Scalar α] [Scalar.Neutral α] (xs : List ι)
    {p : ι → Bool} {term : ι → α} (blank : ∀ x ∈ xs, p x = false → term x = 0) :
    xs.foldl (fun sum x => sum + term x) 0 = (xs.filter p).foldl (fun sum x => sum + term x) 0 := by
  suffices from_settled : ∀ start : α, start + 0 = start →
      xs.foldl (fun sum x => sum + term x) start =
        (xs.filter p).foldl (fun sum x => sum + term x) start from
    from_settled 0 Scalar.Neutral.zero_add_zero
  induction xs with
  | nil => intro start _; rfl
  | cons x xs ih =>
    intro start settled
    obtain ⟨first, rest⟩ := List.forall_mem_cons.mp blank
    rw [List.foldl_cons, ih rest _ (Scalar.Neutral.add_zero_add settled _), List.filter_cons]
    split
    · rw [List.foldl_cons]
    · rename_i skipped
      rw [first (Bool.eq_false_of_not_eq_true skipped), settled]

/-! ## Exact numbers -/

noncomputable instance : Widens ℝ ℝ where
  widen := id
  narrow := id

instance : Scalar.Neutral ℝ where
  zero_add_zero := add_zero 0
  add_zero_add _ _ := add_zero _

theorem unit_nonneg (bits : Nat) : 0 ≤ (Fit.unit bits : ℝ) :=
  div_nonneg (Nat.cast_nonneg bits) (Nat.cast_nonneg _)

instance : Scalar.Lawful ℝ where
  asymm _ _ below := decide_eq_false (lt_asymm (of_decide_eq_true below))
  between {x y z} _ _ _ below := by
    rcases lt_or_ge x y with lower | higher
    · exact .inl (decide_eq_true lower)
    · exact .inr (decide_eq_true (higher.trans_lt (of_decide_eq_true below)))
  cut_zero := max_self 0
  cut_cut x := max_eq_left (le_max_right x 0)
  cut_unit bits := max_eq_left (unit_nonneg bits)

/-! ## Numbers in 32 bits -/

namespace Single

open Float.Model Float.Model.UnpackedFloat
open Lengths (nearest le_nearest log2_eq roundedMantissa_shiftRight shiftRight_eq)

variable {m : Nat} {e : Int} {s : Sign} {u v : UnpackedFloat}
  {b : BitVec Format.binary32.numBits} {x : Float32}

/-- The fields of some bits make up the bits. -/
theorem packComponents_unpack (b : BitVec Format.binary32.numBits) :
    packComponents Format.binary32 (Sign.ofBitVec (unpackSign b)) (unpackExponent b)
      (unpackMantissa b) = b := by
  have sign (v : BitVec 1) : (Sign.ofBitVec v).toBitVec = v := by
    revert v
    decide
  simp only [packComponents, sign, unpackSign, unpackExponent, unpackMantissa, BitVec.extractLsb]
  ext i hi
  grind

/-- Unpacking and packing change no bits. -/
theorem pack_unpack_bits (valid : Format.binary32.Valid b) :
    UnpackedFloat.pack Format.binary32 (unpack Format.binary32 b) = b := by
  have whole := packComponents_unpack b
  have width : (unpackMantissa b).toNat < 2 ^ 23 := (unpackMantissa b).isLt
  have high : (unpackExponent b).toNat < 2 ^ 8 := (unpackExponent b).isLt
  unfold UnpackedFloat.unpack
  dsimp only
  split
  · rename_i top
    split
    · rename_i blank
      rw [top, blank] at whole
      exact whole
    · rename_i payload
      exact (valid.eq_packedNaN top payload).symm
  rename_i finite
  have finite : (unpackExponent b).toNat ≠ 255 := fun top => finite (BitVec.eq_of_toNat_eq top)
  split
  · rename_i low
    rw [low] at whole
    split
    · rename_i blank
      rw [blank] at whole
      exact whole
    · rename_i held
      have pos : (unpackMantissa b).toNat ≠ 0 := fun zero => held (BitVec.eq_of_toNat_eq zero)
      have digits := (Nat.log2_lt pos).mpr width
      unfold UnpackedFloat.pack
      simp only [low, Format.exponentBias, Format.mantissaBits]
      rw [if_neg (by decide), if_neg (by omega), BitVec.ofNat_toNat, BitVec.setWidth_eq]
      exact whole
  · rename_i normal
    have normal : (unpackExponent b).toNat ≠ 0 := fun low => normal (BitVec.eq_of_toNat_eq low)
    have implicit : (1#1 ++ unpackMantissa b).toNat = 2 ^ 23 + (unpackMantissa b).toNat :=
      Fields.mantissa_with_first Format.binary32 b
    have digits : (1#1 ++ unpackMantissa b).toNat.log2 = 23 := log2_eq (by omega) (by omega)
    have mantissa : BitVec.ofNat 23 (1#1 ++ unpackMantissa b).toNat = unpackMantissa b := by
      apply BitVec.eq_of_toNat_eq
      rw [BitVec.toNat_ofNat, implicit]
      omega
    have exponent : BitVec.ofNat 8 (unpackExponent b).toNat = unpackExponent b :=
      (BitVec.ofNat_toNat ..).trans (BitVec.setWidth_eq _)
    have biased : (((unpackExponent b).toNat : Int) -
        ((Format.binary32.exponentBias : Nat) + (23 : Nat)) +
          (Format.binary32.exponentBias : Nat) + (23 : Nat)).toNat = (unpackExponent b).toNat := by
      omega
    unfold UnpackedFloat.pack
    simp only [biased, digits]
    rw [if_neg (by omega), if_pos (by rfl)]
    exact (congrArg₂ (packComponents Format.binary32 _) exponent mantissa).trans whole

theorem pack_unpack (x : Float32) : .ofModel (.pack x.toModel.unpack) = x := by
  obtain ⟨⟨bits, valid⟩⟩ := x
  simp only [Float32.Model.pack, Float32.Model.unpack, pack_unpack_bits valid]

theorem exponent_unpack {pos : 0 < m} (h : unpack Format.binary32 b = .finite s m e pos) :
    -149 ≤ e := by
  unfold UnpackedFloat.unpack at h
  dsimp only at h
  have bias : Format.binary32.exponentBias = 127 := rfl
  rw [bias] at h
  split at h
  · split at h <;> cases h
  split at h
  · split at h
    · cases h
    · cases h
      omega
  · rename_i normal
    have normal : (unpackExponent b).toNat ≠ 0 := fun low => normal (BitVec.eq_of_toNat_eq low)
    cases h
    omega

/-! ### Numbers that are not zero stay so -/

theorem unpack_packComponents {exponent : BitVec 8} {mantissa : BitVec 23}
    (held : exponent = 0#_ → mantissa ≠ 0#_) (zero : Sign) :
    unpack Format.binary32 (packComponents _ s exponent mantissa) ≠ .zero zero := by
  unfold UnpackedFloat.unpack
  simp only [unpackExponent_packComponents, unpackMantissa_packComponents]
  split
  · split <;> exact nofun
  · split
    · rename_i low
      rw [dif_neg (held low)]
      exact nofun
    · exact nofun

theorem unpack_pack_finite (pos : 0 < m) (small : m < 2 ^ 24) (least : -149 ≤ e) (zero : Sign) :
    unpack Format.binary32 (UnpackedFloat.pack _ (.finite s m e pos)) ≠ .zero zero := by
  have bias : Format.binary32.exponentBias = 127 := rfl
  unfold UnpackedFloat.pack
  dsimp only
  rw [bias]
  split
  · exact unpack_packComponents (fun low => absurd low (by decide)) zero
  rename_i room
  split
  · refine unpack_packComponents (fun low => ?_) zero
    have low := congrArg BitVec.toNat low
    simp at low room
    omega
  · rename_i digits
    refine unpack_packComponents (fun _ blank => ?_) zero
    have low : m < 2 ^ 23 := by
      by_contra high
      exact digits (by rw [log2_eq (n := 23) (by omega) (by omega)]; rfl)
    have blank := congrArg BitVec.toNat blank
    simp at blank
    omega

/-- What is left of a mantissa without the digits that do not fit. -/
theorem div_log2 (pos : 0 < m) :
    0 < m / 2 ^ (m.log2 - 23) ∧ m / 2 ^ (m.log2 - 23) < 2 ^ 24 := by
  constructor
  · apply Nat.div_pos _ (Nat.two_pow_pos _)
    exact (Nat.pow_le_pow_right Nat.two_pos (Nat.sub_le ..)).trans (Nat.log2_self_le pos.ne')
  · rw [Nat.div_lt_iff_lt_mul (Nat.two_pow_pos _), ← Nat.pow_add]
    exact Nat.lt_log2_self.trans_le (Nat.pow_le_pow_right Nat.two_pos (by omega))

theorem targetExponent_eq (m : Nat) (e : Int) :
    Format.binary32.targetExponent (totalExponent m e) = max (m.log2 + e - 23) (-149) := by
  rw [totalExponent, Format.targetExponent, Format.minExponent, Format.mantissaBits]
  simp only [Nat.reduceSub, Int.reducePow, Int.reduceSub]
  omega

theorem shiftToTargetExponent_eq (least : -149 ≤ e) :
    shiftToTargetExponent Format.binary32 m e .exact =
      ((ExtendedMantissa.mk m false false) >>> (m.log2 - 23), e + ((m.log2 - 23 : Nat) : Int)) := by
  have amount : (max ((m.log2 : Int) + e - 23) (-149) - e).toNat = m.log2 - 23 := by omega
  rw [shiftToTargetExponent, targetExponent_eq, shiftToExponent, amount]
  rfl

theorem roundWithAccuracy_finite (pos : 0 < m) (least : -149 ≤ e) :
    ∃ m' e' pos', roundWithAccuracy Format.binary32 s m e .exact = .finite s m' e' pos' ∧
      m' < 2 ^ 24 ∧ -149 ≤ e' := by
  have kept : 0 < nearest m (m.log2 - 23) := (div_log2 pos).1.trans_le (le_nearest ..)
  obtain ⟨pos', small⟩ := div_log2 kept
  have later : -149 ≤ e + ((m.log2 - 23 : Nat) : Int) := by omega
  rw [roundWithAccuracy]
  simp only [shiftToTargetExponent_eq least, roundedMantissa_shiftRight]
  simp only [shiftToTargetExponent_eq (m := nearest m (m.log2 - 23)) later, shiftRight_eq]
  exact ⟨_, _, pos', dif_neg pos'.ne', small, by omega⟩

theorem round_finite (pos : 0 < m) (least : -149 ≤ e) :
    ∃ m' e' pos', UnpackedFloat.round Format.binary32 s m e = .finite s m' e' pos' ∧
      m' < 2 ^ 24 ∧ -149 ≤ e' := by
  unfold UnpackedFloat.round
  simp only [decreaseExponent, Nat.shiftLeft_eq, targetExponent_eq]
  exact roundWithAccuracy_finite (Nat.mul_pos pos (Nat.two_pow_pos _)) (by omega)

/-! ### Sums without the sign of zero -/

/-- A float that is packed into something else than a negative zero. -/
def Unsigned (u : UnpackedFloat) : Prop :=
  unpack Format.binary32 (UnpackedFloat.pack Format.binary32 u) ≠ .zero .negative

theorem unsigned_zero : Unsigned (.zero .positive) := nofun

theorem unsigned_notANumber : Unsigned .notANumber := nofun

theorem unsigned_infinity (s : Sign) : Unsigned (.infinity s) := by
  cases s <;> exact nofun

theorem unsigned_unpack (h : x.toModel.unpack ≠ .zero .negative) :
    Unsigned x.toModel.unpack := by
  rw [Unsigned, Float32.Model.unpack, pack_unpack_bits x.toModel.valid]
  exact h

theorem unsigned_normalize (least : -149 ≤ e) (mantissa : Int) :
    Unsigned (UnpackedFloat.normalize Format.binary32 mantissa e .positive) := by
  have rounded {m : Nat} (s : Sign) (pos : 0 < m) :
      Unsigned (UnpackedFloat.round Format.binary32 s m e) := by
    obtain ⟨m', e', pos', same, small, least'⟩ := round_finite (s := s) pos least
    rw [same]
    exact unpack_pack_finite pos' small least' .negative
  unfold UnpackedFloat.normalize
  split
  · rename_i below
    exact rounded _ (by rw [Int.compare_eq_lt] at below; omega)
  · exact unsigned_zero
  · rename_i above
    exact rounded _ (by rw [Int.compare_eq_gt] at above; omega)

/-- A sum is a negative zero only if both numbers are. -/
theorem unsigned_add (signed : u ≠ .zero .negative) (first : Unsigned u)
    (second : v ≠ .zero .negative → Unsigned v)
    (least : ∀ {s m e pos}, u = .finite s m e pos → -149 ≤ e)
    (least' : ∀ {s m e pos}, v = .finite s m e pos → -149 ≤ e) :
    Unsigned (add Format.binary32 u v) := by
  match u, v with
  | .notANumber, _ | .infinity _, .notANumber | .zero _, .notANumber | .finite .., .notANumber =>
    exact unsigned_notANumber
  | .infinity .positive, .infinity .negative | .infinity .negative, .infinity .positive =>
    exact unsigned_notANumber
  | .infinity .positive, .infinity .positive | .infinity .negative, .infinity .negative =>
    exact unsigned_infinity _
  | .infinity s, .zero _ | .infinity s, .finite .. => exact unsigned_infinity s
  | .zero _, .infinity s | .finite .., .infinity s => exact unsigned_infinity s
  | .zero .positive, .zero .positive | .zero .positive, .zero .negative => exact unsigned_zero
  | .zero _, .finite .. => exact second nofun
  | .finite .., .zero _ => exact first
  | .finite .., .finite .. =>
    have := least rfl
    have := least' rfl
    exact unsigned_normalize (by omega) _

/-- Adding zero changes a negative zero and nothing else. -/
theorem add_zero_iff : x + 0 = x ↔ x.toModel.unpack ≠ .zero .negative := by
  have sum : x + 0 = .ofModel (.pack (add Format.binary32 x.toModel.unpack (.zero .positive))) :=
    rfl
  rw [sum]
  constructor
  · intro same negative
    rw [negative] at same
    rw [← same] at negative
    exact absurd negative nofun
  · intro signed
    have kept : add Format.binary32 x.toModel.unpack (.zero .positive) = x.toModel.unpack := by
      match x.toModel.unpack, signed with
      | .notANumber, _ | .infinity _, _ | .zero .positive, _ | .finite .., _ => rfl
    rw [kept, pack_unpack]

theorem add_zero_add (h : x + 0 = x) (y : Float32) : x + y + 0 = x + y := by
  rw [add_zero_iff] at h ⊢
  exact unsigned_add h (unsigned_unpack h) unsigned_unpack exponent_unpack exponent_unpack

end Single

instance : Scalar.Neutral Float32 where
  zero_add_zero := Single.add_zero_iff.mpr nofun
  add_zero_add := Single.add_zero_add

end RoadFlow
