import RoadFlow.Random.Range

/-!
# Draws within their range

However many words are refused, a number that is drawn lies in the range it was asked from, and a
random element is one of those there are.
-/

namespace RoadFlow.Random.Stream

variable {s : Stream} {d : Draw} {low high : Nat}

theorem next32_lt (s : Stream) : s.next32.1 < twoTo 32 := by
  have high : s.next32.1 = s.next.1.toNat / twoTo 32 := by
    show (s.next.1 >>> 32).toNat = _
    rw [UInt64.toNat_shiftRight, Nat.shiftRight_eq_div_pow]
    rfl
  have word : s.next.1.toNat < twoTo 32 * twoTo 32 := s.next.1.toNat_lt
  rw [high]
  exact Nat.div_lt_of_lt_mul word

theorem next64_lt (s : Stream) : s.next64.1 < twoTo 64 := s.next.1.toNat_lt

/-- A word has the bits that are asked for. -/
theorem word_lt {bits : Nat} (known : bits = 32 ∨ bits = 64) : (s.word bits).1 < twoTo bits := by
  rcases known with rfl | rfl
  · exact next32_lt s
  · exact next64_lt s

theorem scaled_lt {v : Nat} (below : v < twoTo d.bits) (positive : 0 < d.range) :
    v * d.range / twoTo d.bits < d.range := by
  apply Nat.div_lt_of_lt_mul
  exact Nat.mul_lt_mul_of_pos_right below positive

theorem draw_lt (known : d.bits = 32 ∨ d.bits = 64) (positive : 0 < d.range) (fuel : Nat)
    (s : Stream) : (s.draw d fuel).1 < d.range := by
  induction fuel generalizing s with
  | zero => exact scaled_lt (word_lt known) positive
  | succ fuel ih =>
    rw [draw]
    split
    rename_i v rest next
    split
    · apply scaled_lt _ positive
      have below := word_lt known (s := s)
      rwa [next] at below
    · exact ih rest

theorem exists_draw (known : d.bits = 32 ∨ d.bits = 64) (positive : 0 < d.range) (fuel : Nat)
    (s : Stream) : ∃ n < d.range, ∃ rest, s.draw d fuel = (n, rest) :=
  ⟨_, draw_lt known positive fuel s, _, rfl⟩

theorem exists_byteIn (some_byte : low < high) (s : Stream) :
    ∃ n, low ≤ n ∧ n < high ∧ ∃ rest, s.byteIn low high = (n, rest) := by
  obtain ⟨n, below, rest, drawn⟩ := exists_draw (d := .exact (high - low)) (.inl rfl)
    (Nat.sub_pos_of_lt some_byte) patience s
  refine ⟨low + n, Nat.le_add_right .., Nat.add_lt_of_lt_sub' below, rest, ?_⟩
  rw [byteIn, drawn]

theorem exists_word32In (some_word : low < high) (s : Stream) :
    ∃ n, low ≤ n ∧ n < high ∧ ∃ rest, s.word32In low high = (n, rest) := by
  obtain ⟨n, below, rest, drawn⟩ := exists_draw (d := .shifted 32 (high - low)) (.inl rfl)
    (Nat.sub_pos_of_lt some_word) patience s
  refine ⟨low + n, Nat.le_add_right .., Nat.add_lt_of_lt_sub' below, rest, ?_⟩
  rw [word32In, drawn]

/-- Where there are elements, one of them is chosen. -/
theorem exists_choose {α : Type} {xs : Array α} (filled : xs ≠ #[]) (s : Stream) :
    ∃ x ∈ xs, ∃ rest, s.choose xs = (some x, rest) := by
  obtain ⟨i, -, place, rest, drawn⟩ := exists_word32In (Array.size_pos_iff.mpr filled) s
  refine ⟨xs[i], Array.getElem_mem place, rest, ?_⟩
  rw [choose, if_neg (by simpa using filled), drawn, ← Array.getElem?_eq_getElem place]

end RoadFlow.Random.Stream
