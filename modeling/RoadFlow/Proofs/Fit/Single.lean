import RoadFlow.Fit.State
import RoadFlow.Proofs.Route.Lengths

/-!
# Numbers in 32 bits

What a fit needs of its numbers (`Scalar.Lawful`), for those of 32 bits: they are ordered by sign,
exponent and mantissa (`compare_eq_lt`), and numbers without a sign are left as they are when
negative ones are cut off (`cut_pack`).
-/

namespace RoadFlow

/-- Numbers that a fit can compare and cut off at zero. -/
class Scalar.Lawful (α : Type) [Scalar α] : Prop where
  asymm {x y : α} : Scalar.isFinite x = true → Scalar.isFinite y = true →
    Scalar.lt x y = true → Scalar.lt y x = false
  /-- A number is above the lower or below the higher of two others. -/
  between {x y z : α} : Scalar.isFinite x = true → Scalar.isFinite y = true →
    Scalar.isFinite z = true → Scalar.lt x z = true → Scalar.lt x y = true ∨ Scalar.lt y z = true
  cut_zero : Scalar.atLeastZero (0 : α) = 0
  cut_cut (x : α) : Scalar.atLeastZero (Scalar.atLeastZero x) = Scalar.atLeastZero x
  cut_unit (bits : Nat) : Scalar.atLeastZero (Fit.unit bits : α) = Fit.unit bits

theorem Scalar.Lawful.irrefl {α : Type} [Scalar α] [Scalar.Lawful α] {x : α}
    (finite : Scalar.isFinite x = true) : Scalar.lt x x = false := by
  by_contra below
  rw [Bool.not_eq_false] at below
  rw [Scalar.Lawful.asymm finite finite below] at below
  cases below

namespace Single

open Float.Model Float.Model.UnpackedFloat
open Lengths (Plus)

variable {x y z : Float32} {u v w : UnpackedFloat}

/-! ## The order -/

/-- The sign, the exponent and the mantissa, the latter two with the sign as well. Infinities are
further out than any sign. -/
def side : UnpackedFloat → Int
  | .infinity .positive => 2
  | .infinity .negative => -2
  | .finite .positive .. => 1
  | .finite .negative .. => -1
  | _ => 0

def height : UnpackedFloat → Int
  | .finite s _ e _ => s.apply e
  | _ => 0

def size : UnpackedFloat → Int
  | .finite s m _ _ => s.apply m
  | _ => 0

/-- By sign, then by exponent, then by mantissa. -/
def Below (u v : UnpackedFloat) : Prop :=
  side u < side v ∨ side u = side v ∧
    (height u < height v ∨ height u = height v ∧ size u < size v)

theorem number_cases (h : u.isNaN = false) :
    (∃ s, u = .zero s) ∨ (∃ s, u = .infinity s) ∨ ∃ s m e pos, u = .finite s m e pos := by
  cases u with
  | zero s => exact .inl ⟨s, rfl⟩
  | infinity s => exact .inr (.inl ⟨s, rfl⟩)
  | finite s m e pos => exact .inr (.inr ⟨s, m, e, pos, rfl⟩)
  | notANumber => cases h

theorem compare_eq_lt (hu : u.isNaN = false) (hv : v.isNaN = false) :
    u.compare v = some .lt ↔ Below u v := by
  have signs : compare Sign.negative Sign.positive = .lt := rfl
  unfold Below
  rcases number_cases hu with ⟨s, rfl⟩ | ⟨s, rfl⟩ | ⟨s, m, e, pos, rfl⟩ <;>
    rcases number_cases hv with ⟨s', rfl⟩ | ⟨s', rfl⟩ | ⟨s', m', e', pos', rfl⟩ <;>
    cases s <;> cases s' <;>
    simp [UnpackedFloat.compare, signs, side, height, size, Sign.apply, Ordering.then_eq_lt,
      Ordering.then_eq_gt, Int.compare_eq_lt, Int.compare_eq_gt, Nat.compare_eq_lt,
      Nat.compare_eq_gt]

theorem compare_isLE (hu : u.isNaN = false) (hv : v.isNaN = false) :
    (u.compare v).any (·.isLE) = true ↔ ¬ Below v u := by
  have signs : compare Sign.positive Sign.negative = .gt := rfl
  unfold Below
  rcases number_cases hu with ⟨s, rfl⟩ | ⟨s, rfl⟩ | ⟨s, m, e, pos, rfl⟩ <;>
    rcases number_cases hv with ⟨s', rfl⟩ | ⟨s', rfl⟩ | ⟨s', m', e', pos', rfl⟩ <;>
    cases s <;> cases s' <;>
    simp [UnpackedFloat.compare, signs, side, height, size, Sign.apply, Ordering.isLE_iff_ne_gt,
      Ordering.isGE_iff_ne_lt, Ordering.then_eq_lt, Ordering.then_eq_gt, Int.compare_eq_lt,
      Int.compare_eq_gt, Nat.compare_eq_lt, Nat.compare_eq_gt] <;>
    omega

theorem lt_iff_compare : x < y ↔ x.toModel.unpack.compare y.toModel.unpack = some .lt := by
  show decide (x.toModel.unpack.lt y.toModel.unpack = true) = true ↔ _
  rw [decide_eq_true_eq, UnpackedFloat.lt, beq_iff_eq]

theorem le_iff_compare :
    x ≤ y ↔ (x.toModel.unpack.compare y.toModel.unpack).any (·.isLE) = true := by
  show decide (x.toModel.unpack.le y.toModel.unpack = true) = true ↔ _
  rw [decide_eq_true_eq, UnpackedFloat.le]

theorem isNaN_of_isFinite (finite : x.isFinite = true) : x.isNaN = false := by
  show x.toModel.unpack.isNaN = false
  have finite : x.toModel.unpack.isFinite = true := finite
  cases unpacked : x.toModel.unpack with
  | notANumber =>
    rw [unpacked] at finite
    cases finite
  | _ => rfl

theorem lt_iff (hx : x.isNaN = false) (hy : y.isNaN = false) :
    x < y ↔ Below x.toModel.unpack y.toModel.unpack := by
  rw [lt_iff_compare, compare_eq_lt hx hy]

theorem le_iff (hx : x.isNaN = false) (hy : y.isNaN = false) :
    x ≤ y ↔ ¬ Below y.toModel.unpack x.toModel.unpack := by
  rw [le_iff_compare, compare_isLE hx hy]

theorem not_lt_iff (hx : x.isNaN = false) (hy : y.isNaN = false) : ¬ x < y ↔ y ≤ x := by
  rw [lt_iff hx hy, le_iff hy hx]

theorem le_refl (hx : x.isNaN = false) : x ≤ x := by
  rw [le_iff hx hx]
  unfold Below
  omega

theorem le_of_lt (hx : x.isNaN = false) (hy : y.isNaN = false) (h : x < y) : x ≤ y := by
  rw [lt_iff hx hy] at h
  rw [le_iff hx hy]
  unfold Below at h ⊢
  omega

theorem lt_of_lt_of_le (hx : x.isNaN = false) (hy : y.isNaN = false) (hz : z.isNaN = false)
    (h : x < y) (h' : y ≤ z) : x < z := by
  rw [lt_iff hx hy] at h
  rw [le_iff hy hz] at h'
  rw [lt_iff hx hz]
  unfold Below at h h' ⊢
  omega

/-- Nothing is below what is not a number. -/
theorem not_lt_of_isNaN (nan : y.isNaN = true) : ¬ x < y := by
  have nan : y.toModel.unpack.isNaN = true := nan
  rw [lt_iff_compare]
  cases unpacked : y.toModel.unpack with
  | notANumber => cases x.toModel.unpack <;> exact nofun
  | _ =>
    rw [unpacked] at nan
    cases nan

theorem not_le_of_isNaN (nan : x.isNaN = true) : ¬ x ≤ y := by
  have nan : x.toModel.unpack.isNaN = true := nan
  rw [le_iff_compare]
  cases unpacked : x.toModel.unpack with
  | notANumber => cases y.toModel.unpack <;> exact nofun
  | _ =>
    rw [unpacked] at nan
    cases nan

theorem scalar_lt : Scalar.lt x y = true ↔ x < y := decide_eq_true_iff

theorem between (hx : x.isFinite = true) (hy : y.isFinite = true) (hz : z.isFinite = true)
    (h : Scalar.lt x z = true) : Scalar.lt x y = true ∨ Scalar.lt y z = true := by
  have hx := isNaN_of_isFinite hx
  have hy := isNaN_of_isFinite hy
  have hz := isNaN_of_isFinite hz
  rw [scalar_lt] at h
  rw [scalar_lt, scalar_lt]
  by_cases low : y < z
  · exact .inr low
  · exact .inl (lt_of_lt_of_le hx hz hy h ((not_lt_iff hy hz).mp low))

theorem asymm (hx : x.isFinite = true) (hy : y.isFinite = true) (h : Scalar.lt x y = true) :
    Scalar.lt y x = false := by
  have hx := isNaN_of_isFinite hx
  have hy := isNaN_of_isFinite hy
  rw [scalar_lt] at h
  rw [← Bool.not_eq_true, scalar_lt]
  exact (not_lt_iff hy hx).mpr (le_of_lt hx hy h)

/-! ## Numbers without a sign -/

theorem cut_cases (x : Float32) :
    Scalar.atLeastZero x = x ↔ x = 0 ∨ 0 < x := by
  show (if 0 < x then x else 0) = x ↔ _
  split
  · rename_i positive
    simp [positive]
  · rename_i low
    simp only [low, or_false]
    exact eq_comm

theorem cut_cut (x : Float32) :
    Scalar.atLeastZero (Scalar.atLeastZero x) = Scalar.atLeastZero x := by
  show Scalar.atLeastZero (if 0 < x then x else 0) = if 0 < x then x else 0
  split
  · rename_i positive
    exact (cut_cases x).mpr (.inr positive)
  · exact (cut_cases 0).mpr (.inl rfl)

@[simp] theorem unpackSign_packComponents {spec : Format} (sign : Sign)
    (exponent : BitVec spec.exponentBits) (mantissa : BitVec spec.mantissaBitsWithoutImplicit) :
    unpackSign (packComponents spec sign exponent mantissa) = sign.toBitVec := by
  ext i hi
  obtain rfl : i = 0 := by omega
  simp [unpackSign, packComponents, BitVec.getLsbD_append, BitVec.getLsbD_eq_getElem,
    BitVec.getElem_append]

/-- Fields without a sign, and without the exponent of infinity, are those of zero or of a number
above it. -/
theorem packComponents_cases (exponent : BitVec 8) (mantissa : BitVec 23)
    (finite : exponent ≠ -1#_) :
    packComponents Format.binary32 .positive exponent mantissa = packedZero _ .positive ∨
      (UnpackedFloat.zero .positive).compare
        (unpack Format.binary32 (packComponents _ .positive exponent mantissa)) = some .lt := by
  have positive : Sign.ofBitVec (Sign.toBitVec .positive) = .positive := rfl
  by_cases zero : exponent = 0#_ ∧ mantissa = 0#_
  · obtain ⟨rfl, rfl⟩ := zero
    exact .inl rfl
  · right
    unfold UnpackedFloat.unpack
    simp only [unpackExponent_packComponents, unpackMantissa_packComponents,
      unpackSign_packComponents, positive]
    rw [if_neg finite]
    split
    · rename_i low
      rw [dif_neg fun blank => zero ⟨low, blank⟩]
      rfl
    · rfl

theorem pack_cases (h : Plus u) :
    UnpackedFloat.pack Format.binary32 u = packedZero _ .positive ∨
      (UnpackedFloat.zero .positive).compare
        (unpack Format.binary32 (UnpackedFloat.pack _ u)) = some .lt := by
  match u, h with
  | .zero .positive, _ => exact .inl rfl
  | .infinity .positive, _ => exact .inr (by decide)
  | .finite .positive m e pos, _ =>
    unfold UnpackedFloat.pack
    dsimp only
    split
    · exact .inr (by decide)
    · rename_i room
      split
      · refine packComponents_cases _ _ fun top => ?_
        have last := congrArg BitVec.toNat top
        simp at room last
        omega
      · exact packComponents_cases _ _ (by decide)

/-- Cutting off leaves what has no sign. -/
theorem cut_pack (h : Plus u) :
    Scalar.atLeastZero (Float32.ofModel (.pack u)) = Float32.ofModel (.pack u) := by
  rw [cut_cases, lt_iff_compare]
  refine (pack_cases h).imp (fun zero => ?_) fun positive => positive
  have bits : Float32.Model.pack u = .pack (.zero .positive) := by
    simp only [Float32.Model.pack, zero]
    rfl
  rw [bits]
  rfl

theorem plus_unpack (h : Scalar.atLeastZero x = x) : Plus x.toModel.unpack := by
  rcases (cut_cases x).mp h with rfl | positive
  · trivial
  · rw [lt_iff_compare] at positive
    have zero : (0 : Float32).toModel.unpack = .zero .positive := rfl
    rw [zero] at positive
    match x.toModel.unpack, positive with
    | .infinity .positive, _ => trivial
    | .finite .positive .., _ => trivial

/-- What cutting off leaves is not below zero. -/
theorem not_lt_zero (h : Scalar.atLeastZero x = x) : ¬ x < 0 := by
  have zero : (0 : Float32).toModel.unpack = .zero .positive := rfl
  rw [lt_iff_compare, zero]
  match x.toModel.unpack, plus_unpack h with
  | .zero .positive, _ => exact nofun
  | .infinity .positive, _ => exact nofun
  | .finite .positive .., _ => exact nofun

/-- What cutting off leaves is a number at or above zero. -/
theorem nonneg (h : Scalar.atLeastZero x = x) : x.isNaN = false ∧ 0 ≤ x := by
  have zero : (0 : Float32).toModel.unpack = .zero .positive := rfl
  have nan : x.isNaN = x.toModel.unpack.isNaN := rfl
  rw [nan, le_iff_compare, zero]
  match x.toModel.unpack, plus_unpack h with
  | .zero .positive, _ => exact ⟨rfl, rfl⟩
  | .infinity .positive, _ => exact ⟨rfl, rfl⟩
  | .finite .positive .., _ => exact ⟨rfl, rfl⟩

/-! ## Drawn numbers -/

variable {spec : Format} {m : Nat} {e : Int} {pos : 0 < m}

theorem plus_roundWithAccuracy (m : Nat) (e : Int) (accuracy : Accuracy) :
    Plus (roundWithAccuracy spec .positive m e accuracy) := by
  unfold roundWithAccuracy
  dsimp only
  split <;> trivial

theorem plus_normalize (m : Nat) (e : Int) :
    Plus (UnpackedFloat.normalize spec m e .positive) := by
  unfold UnpackedFloat.normalize
  split
  · rename_i negative
    rw [Int.compare_eq_lt] at negative
    omega
  · trivial
  · exact plus_roundWithAccuracy _ _ _

theorem plus_mul (h : Plus u) : Plus (mul spec u (.finite .positive m e pos)) := by
  match u, h with
  | .zero .positive, _ | .infinity .positive, _ => trivial
  | .finite .positive .., _ => exact plus_roundWithAccuracy _ _ _

theorem plus_div (h : Plus u) : Plus (div spec u (.finite .positive m e pos)) := by
  match u, h with
  | .zero .positive, _ | .infinity .positive, _ => trivial
  | .finite .positive .., _ => exact plus_roundWithAccuracy _ _ _

theorem plus_ofScientific (m : Nat) (e : Int) :
    Plus (UnpackedFloat.ofScientific spec m e) := by
  unfold UnpackedFloat.ofScientific
  split
  · trivial
  split
  · trivial
  split
  · trivial
  split
  · exact plus_mul trivial
  · exact plus_div trivial

theorem cut_ofNat (n : Nat) : Scalar.atLeastZero (Float32.ofNat n) = Float32.ofNat n := by
  show Scalar.atLeastZero (Float32.ofScientific n false 0) = Float32.ofScientific n false 0
  unfold Float32.ofScientific
  split
  · -- a small number is converted and multiplied by one
    have one : ∃ m e pos, (Float32.ofBits 0x3F800000).toModel.unpack = .finite .positive m e pos :=
      ⟨_, _, _, rfl⟩
    obtain ⟨m, e, pos, one⟩ := one
    have product : n.toUInt64.toFloat32 * Float32.ofBits 0x3F800000 = .ofModel (.pack
        (mul Format.binary32 n.toUInt64.toFloat32.toModel.unpack
          (Float32.ofBits 0x3F800000).toModel.unpack)) := rfl
    have whole : Scalar.atLeastZero n.toUInt64.toFloat32 = n.toUInt64.toFloat32 :=
      cut_pack (plus_normalize n.toUInt64.toNat 0)
    show Scalar.atLeastZero (n.toUInt64.toFloat32 * Float32.ofBits 0x3F800000) =
      n.toUInt64.toFloat32 * Float32.ofBits 0x3F800000
    rw [product, one]
    exact cut_pack (plus_mul (plus_unpack whole))
  · exact cut_pack (plus_ofScientific n 0)

theorem cut_unit (bits : Nat) : Scalar.atLeastZero (Fit.unit bits : Float32) = Fit.unit bits := by
  have divisor : ∃ m e pos, (Float32.ofNat (twoTo 24)).toModel.unpack = .finite .positive m e pos :=
    ⟨_, _, _, rfl⟩
  obtain ⟨m, e, pos, divisor⟩ := divisor
  have quotient : (Fit.unit bits : Float32) = .ofModel (.pack (div Format.binary32
      (Float32.ofNat bits).toModel.unpack (Float32.ofNat (twoTo 24)).toModel.unpack)) := rfl
  rw [quotient, divisor]
  exact cut_pack (plus_div (plus_unpack (cut_ofNat bits)))

end Single

instance : Scalar.Lawful Float32 where
  asymm := Single.asymm
  between := Single.between
  cut_zero := Single.cut_cases 0 |>.mpr (.inl rfl)
  cut_cut := Single.cut_cut
  cut_unit := Single.cut_unit

end RoadFlow
