import Mathlib
import RoadFlow.Proofs.Decimal.Fields
import RoadFlow.Proofs.Route.Walk
import RoadFlow.Route.Policy

/-!
# Costs in 64 bits

Numbers of 64 bits from zero up to infinity are ordered as their bits are (`lt_iff_bits`), and
adding a length to one of them gives another (`isCost_add`). So rounded sums of lengths are ordered
as costs must be (`costOrder_lengths`).
-/

namespace RoadFlow

open Float.Model Float.Model.UnpackedFloat Fields PathCost

namespace Lengths

/-- The bits of a number, read as a natural one. -/
def bitsOf (x : Float) : Nat := x.toBits.toNat

def infinityBits : Nat := 0x7ff0000000000000

/-- Zero or more, infinity included: neither the sign nor any bit above those of infinity is set. -/
def IsCost (x : Float) : Prop := bitsOf x ≤ infinityBits

variable {x y : Float}

theorem bitsOf_injective : Function.Injective bitsOf := by
  rintro ⟨⟨x, _⟩⟩ ⟨⟨y, _⟩⟩ same
  obtain rfl : x = y := UInt64.toNat_inj.mp same
  rfl

/-! ## Reading the bits -/

/-- The mantissa, with the bit that normal numbers leave out. -/
def mantissaOf (n : Nat) : Nat := if n / 2 ^ 52 = 0 then n else 2 ^ 52 + n % 2 ^ 52

def exponentOf (n : Nat) : Int := max (n / 2 ^ 52 : Nat) 1 - 1075

theorem mantissaOf_pos {n : Nat} (h : n ≠ 0) : 0 < mantissaOf n := by
  unfold mantissaOf
  split <;> omega

theorem unpack_cost (h : IsCost x) :
    x.toModel.unpack =
      if bitsOf x = infinityBits then .infinity .positive
      else if zero : bitsOf x = 0 then .zero .positive
      else .finite .positive (mantissaOf (bitsOf x)) (exponentOf (bitsOf x))
        (mantissaOf_pos zero) := by
  have mantissa := mantissa_toNat Format.binary64 x.toModel.toBits.toBitVec
  have exponent := exponent_toNat Format.binary64 x.toModel.toBits.toBitVec
  have sign := sign_toNat Format.binary64 x.toModel.toBits.toBitVec
  have bits : x.toModel.toBits.toBitVec.toNat = bitsOf x := rfl
  rw [bits] at mantissa exponent sign
  unfold IsCost infinityBits at h
  have positive : @unpackSign Format.binary64 x.toModel.toBits.toBitVec = 0#1 := by
    apply BitVec.eq_of_toNat_eq
    rw [sign]
    simp
    omega
  have highest : @unpackExponent Format.binary64 x.toModel.toBits.toBitVec = -1#_ ↔
      bitsOf x = infinityBits := by
    rw [← BitVec.toNat_inj, exponent]
    simp [infinityBits]
    omega
  have lowest : @unpackExponent Format.binary64 x.toModel.toBits.toBitVec = 0#_ ↔
      bitsOf x / 2 ^ 52 = 0 := by
    rw [← BitVec.toNat_inj, exponent]
    simp
    omega
  have blank : @unpackMantissa Format.binary64 x.toModel.toBits.toBitVec = 0#_ ↔
      bitsOf x % 2 ^ 52 = 0 := by
    rw [← BitVec.toNat_inj, mantissa]
    simp
  rw [Float.Model.unpack, UnpackedFloat.unpack]
  simp only [positive]
  by_cases infinite : bitsOf x = infinityBits
  · rw [if_pos (highest.mpr infinite), if_pos (blank.mpr (by rw [infinite]; decide)),
      if_pos infinite]
    rfl
  · rw [if_neg (mt highest.mp infinite), if_neg infinite]
    by_cases low : bitsOf x / 2 ^ 52 = 0
    · rw [if_pos (lowest.mpr low)]
      by_cases zero : bitsOf x = 0
      · rw [dif_pos (blank.mpr (by simp [zero])), dif_pos zero]
        rfl
      · rw [dif_neg (mt blank.mp (by omega)), dif_neg zero]
        simp only [mantissaOf, exponentOf, low, if_true, mantissa, exponent]
        congr 1
        omega
    · have zero : bitsOf x ≠ 0 := by omega
      rw [if_neg (mt lowest.mp low), dif_neg zero]
      simp only [mantissaOf, exponentOf, low, if_false, exponent]
      congr 1
      · rw [BitVec.toNat_append, mantissa]
        exact (Nat.shiftLeft_add_eq_or_of_lt (Nat.mod_lt _ (by decide)) 1).symm
      · simp only [Format.exponentBias]
        omega

/-! ## The order -/

theorem lt_iff_compare :
    lt x y = true ↔ x.toModel.unpack.compare y.toModel.unpack = some .lt := by
  have compared : lt x y = x.toModel.unpack.lt y.toModel.unpack := by
    show decide (Float.lt x y = true) = _
    rw [Bool.decide_eq_true]
    show decide (x.toModel.unpack.lt y.toModel.unpack = true) = _
    rw [Bool.decide_eq_true]
  rw [compared, UnpackedFloat.lt, beq_iff_eq]

/-- By exponent, then by mantissa, is by bits. -/
theorem compare_parts {n k : Nat} :
    (compare (exponentOf n) (exponentOf k)).then (compare (mantissaOf n) (mantissaOf k)) = .lt ↔
      n < k := by
  rw [Ordering.then_eq_lt, Int.compare_eq_lt, Int.compare_eq_eq, Nat.compare_eq_lt]
  unfold exponentOf mantissaOf
  split <;> split <;> omega

theorem lt_iff_bits (hx : IsCost x) (hy : IsCost y) : lt x y = true ↔ bitsOf x < bitsOf y := by
  rw [lt_iff_compare, unpack_cost hx, unpack_cost hy]
  unfold IsCost at hx hy
  have positive : 0 < infinityBits := by decide
  by_cases infiniteX : bitsOf x = infinityBits
  · have least : ¬ bitsOf x < bitsOf y := by omega
    rw [if_pos infiniteX]
    split
    · simpa [UnpackedFloat.compare] using least
    · split <;> simpa [UnpackedFloat.compare] using least
  · rw [if_neg infiniteX]
    by_cases infiniteY : bitsOf y = infinityBits
    · have below : bitsOf x < bitsOf y := by omega
      rw [if_pos infiniteY]
      split <;> simpa [UnpackedFloat.compare] using below
    · rw [if_neg infiniteY]
      by_cases zeroX : bitsOf x = 0 <;> by_cases zeroY : bitsOf y = 0
      · simp [zeroX, zeroY, UnpackedFloat.compare]
      · simp [zeroX, zeroY, UnpackedFloat.compare]
        omega
      · simp [zeroX, zeroY, UnpackedFloat.compare]
      · simp only [zeroX, zeroY, dif_neg, not_false_iff, UnpackedFloat.compare, Option.some.injEq]
        exact compare_parts

theorem atMost_iff_bits (hx : IsCost x) (hy : IsCost y) : AtMost x y ↔ bitsOf x ≤ bitsOf y := by
  rw [AtMost, ← Bool.not_eq_true, lt_iff_bits hy hx, Nat.not_lt]

theorem isCost_zero : IsCost 0 := by
  unfold IsCost
  decide

theorem bitsOf_unreached : bitsOf (unreached : Float) = infinityBits := by decide

theorem isCost_unreached : IsCost unreached := bitsOf_unreached.le

/-- Sums that are costs are ordered as costs. -/
theorem costOrder_of_isCost {net : Network} {measure : EdgeId → Float} {source : NodeId}
    (costs : ∀ {v a}, net.Attains measure source v a → IsCost a) :
    CostOrder net measure source := by
  have isCost {a : Float} (h : net.Met measure source a) : IsCost a := by
    rcases h with rfl | ⟨v, attains⟩
    · exact isCost_unreached
    · exact costs attains
  constructor
  · intro a ha
    rw [← Bool.not_eq_true, lt_iff_bits (isCost ha) (isCost ha)]
    exact Nat.lt_irrefl _
  · intro a b c ha hb hc
    rw [lt_iff_bits (isCost ha) (isCost hb), lt_iff_bits (isCost hb) (isCost hc),
      lt_iff_bits (isCost ha) (isCost hc)]
    exact Nat.lt_trans
  · intro a b ha hb
    rw [atMost_iff_bits (isCost ha) (isCost hb), atMost_iff_bits (isCost hb) (isCost ha)]
    exact fun below above => bitsOf_injective (Nat.le_antisymm below above)
  · intro a ha
    rw [atMost_iff_bits (isCost ha) isCost_unreached, bitsOf_unreached]
    exact isCost ha
  · decide

/-! ## Sums -/

/-- Zero or more, without the sign of a negative zero. -/
def Plus : UnpackedFloat → Prop
  | .zero .positive | .finite .positive .. | .infinity .positive => True
  | _ => False

theorem packComponents_toNat (exponent : BitVec 11) (mantissa : BitVec 52) :
    (packComponents Format.binary64 .positive exponent mantissa).toNat =
      exponent.toNat * 2 ^ 52 + mantissa.toNat := by
  rw [packComponents, BitVec.toNat_append, BitVec.toNat_append,
    ← Nat.shiftLeft_add_eq_or_of_lt mantissa.isLt]
  simp [Sign.toBitVec, Nat.shiftLeft_eq]

theorem isCost_pack {u : UnpackedFloat} (h : Plus u) : IsCost (.ofModel (.pack u)) := by
  have bits : bitsOf (.ofModel (.pack u)) = (UnpackedFloat.pack Format.binary64 u).toNat := rfl
  rw [IsCost, bits]
  match u, h with
  | .zero .positive, _ => decide
  | .infinity .positive, _ => decide
  | .finite .positive m e pos, _ =>
    have small := Nat.mod_lt m (y := 2 ^ 52) (by decide)
    unfold UnpackedFloat.pack infinityBits
    dsimp only
    split
    · rw [packedInfinity, packComponents_toNat]
      decide
    · rename_i room
      split
      · rw [packComponents_toNat]
        simp only [BitVec.toNat_ofNat]
        simp at room ⊢
        omega
      · rw [packComponents_toNat]
        simp only [BitVec.toNat_ofNat]
        simp
        omega

theorem plus_unpack (h : IsCost x) : Plus x.toModel.unpack := by
  rw [unpack_cost h]
  split
  · trivial
  · split <;> trivial

theorem normalize_pos {m : Nat} (pos : 0 < m) (e : Int) (zero : Sign) :
    UnpackedFloat.normalize Format.binary64 m e zero =
      UnpackedFloat.round Format.binary64 .positive m e := by
  have sign : compare (m : Int) 0 = .gt := by
    rw [Int.compare_eq_gt]
    omega
  rw [UnpackedFloat.normalize, sign]
  rfl

theorem plus_normalize {m : Nat} (pos : 0 < m) (e : Int) (zero : Sign) :
    Plus (UnpackedFloat.normalize Format.binary64 m e zero) := by
  rw [normalize_pos pos]
  unfold UnpackedFloat.round roundWithAccuracy
  dsimp only
  split <;> trivial

theorem length_cases (h : Builder.isLength x = true) :
    (∃ s, x.toModel.unpack = .zero s) ∨
      ∃ m e pos, x.toModel.unpack = .finite .positive m e pos := by
  rw [Builder.isLength, Bool.and_eq_true, Bool.not_eq_true'] at h
  obtain ⟨finite, low⟩ := h
  have finite : x.toModel.unpack.isFinite = true := finite
  have low : ¬ lt x 0 = true := by
    rw [Bool.not_eq_true]
    exact low
  have zero : (0 : Float).toModel.unpack = .zero .positive := by rfl
  rw [lt_iff_compare, zero] at low
  cases unpacked : x.toModel.unpack with
  | infinity s =>
    rw [unpacked] at finite
    cases finite
  | notANumber =>
    rw [unpacked] at finite
    cases finite
  | zero s => exact .inl ⟨s, rfl⟩
  | finite s m e pos =>
    cases s with
    | negative =>
      rw [unpacked] at low
      exact absurd rfl low
    | positive => exact .inr ⟨m, e, pos, rfl⟩

/-- A length is not negative, a zero of either sign included. -/
theorem nonneg_of_isLength (h : Builder.isLength x = true) : 0 ≤ x := by
  have zero : (0 : Float).toModel.unpack = .zero .positive := by rfl
  show decide ((0 : Float).toModel.unpack.le x.toModel.unpack = true) = true
  rw [decide_eq_true_eq, zero]
  rcases length_cases h with ⟨s, unpacked⟩ | ⟨m, e, pos, unpacked⟩
  · rw [unpacked]
    cases s <;> rfl
  · rw [unpacked]
    rfl

theorem isCost_add (hx : IsCost x) (hy : Builder.isLength y = true) : IsCost (x + y) := by
  have sum : x + y = .ofModel (.pack
      (UnpackedFloat.add Format.binary64 x.toModel.unpack y.toModel.unpack)) := rfl
  rw [sum]
  apply isCost_pack
  have plus := plus_unpack hx
  rcases length_cases hy with ⟨s, zero⟩ | ⟨m', e', pos', finite⟩
  · rw [zero]
    match x.toModel.unpack, plus with
    | .zero .positive, _ => cases s <;> trivial
    | .infinity .positive, _ => trivial
    | .finite .positive m e pos, _ => trivial
  · rw [finite]
    match x.toModel.unpack, plus with
    | .zero .positive, _ => trivial
    | .infinity .positive, _ => trivial
    | .finite .positive m e pos, _ =>
      rw [UnpackedFloat.add]
      simp only [Sign.apply, decreaseExponent]
      rw [← Int.natCast_add]
      apply plus_normalize
      refine Nat.add_pos_left ?_ _
      rw [Nat.shiftLeft_eq]
      exact Nat.mul_pos pos (Nat.two_pow_pos _)

variable {net : Network} {measure : EdgeId → Float} {source v : NodeId} {a : Float}

theorem isCost_of_attains
    (lengths : ∀ {e edge}, net.edge? e = some edge → Builder.isLength (measure e) = true)
    (h : net.Attains measure source v a) : IsCost a := by
  obtain ⟨edges, walk, rfl⟩ := h
  induction walk with
  | stay => exact isCost_zero
  | go _ found ih =>
    rw [walkCost_concat]
    exact isCost_add ih (lengths found)

theorem isLength_lengthOf (sound : net.Sound) {e : EdgeId} {edge : Edge}
    (found : net.edge? e = some edge) : Builder.isLength (net.lengthOf e) = true := by
  rw [Network.lengthOf, found]
  exact sound.isLength found

end Lengths

/-- Rounded sums of the lengths of a network are ordered as costs. -/
theorem costOrder_lengths {net : Network} (sound : net.Sound) (source : NodeId) :
    CostOrder net net.lengthOf source :=
  Lengths.costOrder_of_isCost (Lengths.isCost_of_attains (Lengths.isLength_lengthOf sound))

end RoadFlow
