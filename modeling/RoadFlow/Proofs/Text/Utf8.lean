import RoadFlow.Text.Utf8

/-!
# The UTF-8 round trip

Every text is read back from its bytes (`decode_encode`). Reading goes character by character, and
the first byte of a character sets the range of its second.
-/

namespace RoadFlow.Text.Utf8

variable {valid : Nat} {rest : List UInt8}

/-- A byte that carries six bits of a character under way. -/
def tail (n : Nat) : UInt8 := UInt8.ofNat (n % 64 + 0x80)

theorem toNat_tail (n : Nat) : (tail n).toNat = n % 64 + 0x80 := by
  rw [tail, UInt8.toNat_ofNat']
  omega

theorem decodeFrom_last {p : Pending} {n : Nat} (low : p.low.toNat ≤ n % 64 + 0x80)
    (high : n % 64 + 0x80 ≤ p.high.toNat) (left : p.left = 1) :
    decodeFrom valid (some p) (tail n :: rest) =
      (decodeFrom (valid + p.read + 1) none rest).map
        (Char.ofNat (p.code * 64 + n % 64) :: ·) := by
  have bits : (tail n).toNat % 64 = n % 64 := by
    rw [toNat_tail]
    omega
  have inside : (p.low ≤ tail n && tail n ≤ p.high) = true := by
    simp only [UInt8.le_iff_toNat_le, toNat_tail, low, high, decide_true, Bool.and_self]
  rw [decodeFrom, if_pos inside, bits]
  simp [left]

theorem decodeFrom_more {p : Pending} {n : Nat} (low : p.low.toNat ≤ n % 64 + 0x80)
    (high : n % 64 + 0x80 ≤ p.high.toNat) (left : 1 < p.left) :
    decodeFrom valid (some p) (tail n :: rest) =
      decodeFrom valid
        (some ⟨0x80, 0xbf, p.left - 1, p.read + 1, p.code * 64 + n % 64⟩) rest := by
  have bits : (tail n).toNat % 64 = n % 64 := by
    rw [toNat_tail]
    omega
  have inside : (p.low ≤ tail n && tail n ≤ p.high) = true := by
    simp only [UInt8.le_iff_toNat_le, toNat_tail, low, high, decide_true, Bool.and_self]
  rw [decodeFrom, if_pos inside, bits]
  simp only
  rw [if_neg (by omega)]

theorem decodeFrom_first {b low high : UInt8} {count : Nat} (wide : 0x80 ≤ b.toNat)
    (shape : shape? b = some (low, high, count)) :
    decodeFrom valid none (b :: rest) =
      decodeFrom valid (some ⟨low, high, count, 1, payload b count⟩) rest := by
  have several : ¬ b < 0x80 := by
    rw [UInt8.lt_iff_toNat_lt]
    exact Nat.not_lt.mpr wide
  rw [decodeFrom, if_neg several, shape]

theorem shape?_two {b : UInt8} (low : 0xc2 ≤ b.toNat) (high : b.toNat ≤ 0xdf) :
    shape? b = some (0x80, 0xbf, 1) := by
  simp [shape?, UInt8.le_iff_toNat_le, low, high]

/-- The second byte of a character of three bytes is in the range that the first sets, as no
character is a surrogate. -/
theorem shape?_three {b : UInt8} {v : Nat} (first : b.toNat = v / 4096 + 0xe0) (low : 0x800 ≤ v)
    (high : v ≤ 0xffff) (scalar : v < 0xd800 ∨ 0xdfff < v) :
    ∃ lo hi, shape? b = some (lo, hi, 2) ∧
      lo.toNat ≤ v / 64 % 64 + 0x80 ∧ v / 64 % 64 + 0x80 ≤ hi.toNat := by
  simp only [shape?, ← UInt8.toNat_inj, UInt8.le_iff_toNat_le, first, UInt8.reduceToNat]
  by_cases least : v / 4096 = 0
  · refine ⟨0xa0, 0xbf, by simp [least], ?_, ?_⟩ <;> simp only [UInt8.reduceToNat] <;> omega
  by_cases surrogates : v / 4096 = 13
  · refine ⟨0x80, 0x9f, by simp [surrogates], ?_, ?_⟩ <;> simp only [UInt8.reduceToNat] <;> omega
  refine ⟨0x80, 0xbf, ?_, ?_, ?_⟩
  · grind
  · simp only [UInt8.reduceToNat]
    omega
  · simp only [UInt8.reduceToNat]
    omega

/-- The second byte of a character of four bytes is in the range that the first sets. -/
theorem shape?_four {b : UInt8} {v : Nat} (first : b.toNat = v / 262144 + 0xf0)
    (low : 0x10000 ≤ v) (high : v ≤ 0x10ffff) :
    ∃ lo hi, shape? b = some (lo, hi, 3) ∧
      lo.toNat ≤ v / 4096 % 64 + 0x80 ∧ v / 4096 % 64 + 0x80 ≤ hi.toNat := by
  simp only [shape?, ← UInt8.toNat_inj, UInt8.le_iff_toNat_le, first, UInt8.reduceToNat]
  by_cases least : v / 262144 = 0
  · refine ⟨0x90, 0xbf, by simp [least], ?_, ?_⟩ <;> simp only [UInt8.reduceToNat] <;> omega
  by_cases greatest : v / 262144 = 4
  · refine ⟨0x80, 0x8f, by simp [greatest], ?_, ?_⟩ <;> simp only [UInt8.reduceToNat] <;> omega
  refine ⟨0x80, 0xbf, ?_, ?_, ?_⟩
  · grind
  · simp only [UInt8.reduceToNat]
    omega
  · simp only [UInt8.reduceToNat]
    omega

/-! ## Characters by width -/

variable {v : Nat}

theorem decodeFrom_one (high : v ≤ 0x7f) :
    decodeFrom valid none (UInt8.ofNat v :: rest) =
      (decodeFrom (valid + 1) none rest).map (Char.ofNat v :: ·) := by
  have byte : (UInt8.ofNat v).toNat = v := by
    rw [UInt8.toNat_ofNat']
    omega
  have ascii : UInt8.ofNat v < 0x80 := by
    rw [UInt8.lt_iff_toNat_lt, byte]
    exact Nat.lt_succ_of_le high
  rw [decodeFrom, if_pos ascii, byte]

theorem decodeFrom_two (low : 0x7f < v) (high : v ≤ 0x7ff) :
    decodeFrom valid none (UInt8.ofNat (v / 64 % 0x20 + 0xc0) :: tail v :: rest) =
      (decodeFrom (valid + 2) none rest).map (Char.ofNat v :: ·) := by
  have first : (UInt8.ofNat (v / 64 % 0x20 + 0xc0)).toNat = v / 64 + 0xc0 := by
    rw [UInt8.toNat_ofNat']
    omega
  generalize UInt8.ofNat (v / 64 % 0x20 + 0xc0) = b at first
  have code : payload b 1 * 64 + v % 64 = v := by
    rw [payload, first, twoTo, Nat.pow_eq]
    omega
  rw [decodeFrom_first (by omega) (shape?_two (by omega) (by omega)),
    decodeFrom_last (by simp) (by simp; omega) rfl, code]

theorem decodeFrom_three (low : 0x7ff < v) (high : v ≤ 0xffff)
    (scalar : v < 0xd800 ∨ 0xdfff < v) :
    decodeFrom valid none
        (UInt8.ofNat (v / 4096 % 0x10 + 0xe0) :: tail (v / 64) :: tail v :: rest) =
      (decodeFrom (valid + 3) none rest).map (Char.ofNat v :: ·) := by
  have first : (UInt8.ofNat (v / 4096 % 0x10 + 0xe0)).toNat = v / 4096 + 0xe0 := by
    rw [UInt8.toNat_ofNat']
    omega
  generalize UInt8.ofNat (v / 4096 % 0x10 + 0xe0) = b at first
  obtain ⟨lo, hi, shape, above, below⟩ := shape?_three first low high scalar
  have code : (payload b 2 * 64 + v / 64 % 64) * 64 + v % 64 = v := by
    rw [payload, first, twoTo, Nat.pow_eq]
    omega
  rw [decodeFrom_first (by omega) shape, decodeFrom_more above below (by simp),
    decodeFrom_last (by simp) (by simp; omega) rfl, code]

theorem decodeFrom_four (low : 0xffff < v) (high : v ≤ 0x10ffff) :
    decodeFrom valid none
        (UInt8.ofNat (v / 262144 % 0x08 + 0xf0) :: tail (v / 4096) :: tail (v / 64) :: tail v ::
          rest) =
      (decodeFrom (valid + 4) none rest).map (Char.ofNat v :: ·) := by
  have first : (UInt8.ofNat (v / 262144 % 0x08 + 0xf0)).toNat = v / 262144 + 0xf0 := by
    rw [UInt8.toNat_ofNat']
    omega
  generalize UInt8.ofNat (v / 262144 % 0x08 + 0xf0) = b at first
  obtain ⟨lo, hi, shape, above, below⟩ := shape?_four first low high
  have code : ((payload b 3 * 64 + v / 4096 % 64) * 64 + v / 64 % 64) * 64 + v % 64 = v := by
    rw [payload, first, twoTo, Nat.pow_eq]
    omega
  rw [decodeFrom_first (by omega) shape, decodeFrom_more above below (by simp),
    decodeFrom_more (by simp) (by simp; omega) (by simp),
    decodeFrom_last (by simp) (by simp; omega) rfl, code]

/-! ## Texts -/

theorem decodeFrom_char (c : Char) :
    decodeFrom valid none (String.utf8EncodeChar c ++ rest) =
      (decodeFrom (valid + (String.utf8EncodeChar c).length) none rest).map (c :: ·) := by
  have scalar : c.val.toNat < 0xd800 ∨ 0xdfff < c.val.toNat ∧ c.val.toNat < 0x110000 := c.valid
  have back : Char.ofNat c.val.toNat = c := Char.ofNat_toNat c
  unfold String.utf8EncodeChar
  generalize c.val.toNat = v at scalar back
  rw [← back]
  dsimp only
  split
  · rename_i one
    exact decodeFrom_one one
  split
  · rename_i one two
    exact decodeFrom_two (by omega) two
  split
  · rename_i two three
    exact decodeFrom_three (by omega) three (by omega)
  · rename_i three
    exact decodeFrom_four (by omega) (by omega)

theorem decodeFrom_encoded (text : List Char) :
    decodeFrom valid none (text.flatMap String.utf8EncodeChar) = .ok text := by
  induction text generalizing valid with
  | nil => rfl
  | cons c text ih =>
    rw [List.flatMap_cons, decodeFrom_char, ih]
    rfl

theorem encode_eq (text : String) : encode text = text.toList.flatMap String.utf8EncodeChar := by
  rw [encode, String.toUTF8_eq_toByteArray, ← String.utf8Encode_toList, List.utf8Encode]
  exact List.toList_data_toByteArray

theorem encode_append (a b : String) : encode (a ++ b) = encode a ++ encode b := by
  simp [encode, String.toUTF8]

/-- A text is read back from its bytes. -/
@[simp] theorem decode_encode (text : String) : decode (encode text) = .ok text := by
  rw [decode, encode_eq, decodeFrom_encoded]
  exact congrArg Except.ok String.ofList_toList

end RoadFlow.Text.Utf8
