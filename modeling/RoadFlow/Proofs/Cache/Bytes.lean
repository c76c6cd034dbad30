import Mathlib.Algebra.Order.Ring.Nat
import RoadFlow.Cache.Bytes
import RoadFlow.Proofs.Except
import RoadFlow.Proofs.Text.Utf8

/-!
# Reading back binary fields

A reader that takes exactly the bytes of a field gives back what was put there, whatever follows,
and fails when the bytes end within the field (`Reads`). Readers of fields in a row make one of all
the bytes (`Reads.bind`).
-/

namespace RoadFlow.Cache

/-- A reader takes just some bytes, and fails on a part of them. -/
structure Reads {α : Type} (read : Bytes → Except EncodingFault α) (bytes : Bytes)
    (found : Bytes → α) : Prop where
  whole : ∀ rest, read (bytes ++ rest) = .ok (found rest)
  part : ∀ {front}, front <+: bytes → front ≠ bytes → ∃ fault, read front = .error fault

namespace Reads

variable {α β : Type} {bytes more : Bytes}

/-- A reader that wants a number of bytes before it looks at any. -/
theorem ofLength {read : Bytes → Except EncodingFault α} {found : Bytes → α}
    (whole : ∀ rest, read (bytes ++ rest) = .ok (found rest))
    (short : ∀ input, input.length < bytes.length → ∃ fault, read input = .error fault) :
    Reads read bytes found := by
  refine ⟨whole, ?_⟩
  intro front part different
  apply short
  by_contra long
  exact different (part.eq_of_length (Nat.le_antisymm part.length_le (Nat.not_lt.mp long)))

/-- One field after the other. -/
theorem bind {take : Bytes → Except EncodingFault (α × Bytes)}
    {next : α × Bytes → Except EncodingFault β} {a : α} {found : Bytes → β}
    (first : Reads take bytes fun rest => (a, rest))
    (second : Reads (fun rest => next (a, rest)) more found) :
    Reads (fun input => take input >>= next) (bytes ++ more) found := by
  constructor
  · intro rest
    rw [List.append_assoc]
    rw [first.whole]
    exact second.whole rest
  · intro front part different
    rcases Nat.lt_or_ge front.length bytes.length with short | long
    · have within : front <+: bytes :=
        List.prefix_of_prefix_length_le part (List.prefix_append bytes more)
          (Nat.le_of_lt short)
      have strict : front ≠ bytes := by
        rintro rfl
        exact Nat.lt_irrefl _ short
      obtain ⟨fault, failed⟩ := first.part within strict
      exact ⟨fault, by simp [failed, Bind.bind, Except.bind]⟩
    · obtain ⟨rest, rfl⟩ :=
        List.prefix_of_prefix_length_le (List.prefix_append bytes more) part long
      have within : rest <+: more := (List.prefix_append_right_inj bytes).mp part
      have strict : rest ≠ more := by
        rintro rfl
        exact different rfl
      obtain ⟨fault, failed⟩ := second.part within strict
      exact ⟨fault, by simp [first.whole, failed, Bind.bind, Except.bind]⟩

/-- Nothing is left to read. -/
theorem done (a : α) : Reads (fun _ => .ok a) [] fun _ => a := by
  refine ⟨fun _ => rfl, ?_⟩
  intro front part different
  exact absurd (List.prefix_nil.mp part) different

end Reads

/-! ## Numbers -/

@[simp] theorem length_putNatural (size n : Nat) : (putNatural size n).length = size := by
  induction size generalizing n with
  | zero => rfl
  | succ size ih => simp [putNatural, ih]

theorem naturalOf_lt (bytes : Bytes) : naturalOf bytes < 256 ^ bytes.length := by
  induction bytes with
  | nil => simp [naturalOf]
  | cons b bytes ih =>
    have low : b.toNat < 256 := b.toNat_lt
    rw [naturalOf] at ih ⊢
    rw [List.foldr_cons, List.length_cons, Nat.pow_succ]
    omega

/-- A number that fits its field is read back from it. -/
theorem naturalOf_putNatural {size n : Nat} (h : n < 256 ^ size) :
    naturalOf (putNatural size n) = n := by
  induction size generalizing n with
  | zero =>
    rw [Nat.pow_zero] at h
    simp only [putNatural, naturalOf, List.foldr_nil]
    omega
  | succ size ih =>
    have high : n / 256 < 256 ^ size := Nat.div_lt_of_lt_mul (by rwa [Nat.mul_comm, ← Nat.pow_succ])
    have rest := ih high
    have low : (n % 256).toUInt8.toNat = n % 256 := by
      simp
    rw [naturalOf] at rest ⊢
    rw [putNatural, List.foldr_cons, rest, low]
    exact Nat.mod_add_div n 256

theorem reads_bytes {size : Nat} {bytes : Bytes} (h : bytes.length = size) :
    Reads (takeBytes size) bytes fun rest => (bytes, rest) := by
  subst h
  apply Reads.ofLength
  · intro rest
    simp [takeBytes]
  · intro input short
    exact ⟨.ended, if_neg (Nat.not_le.mpr short)⟩

theorem takeNatural_ended {size : Nat} {input : Bytes} (short : input.length < size) :
    takeNatural size input = .error .ended := by
  rw [takeNatural, takeBytes, if_neg (Nat.not_le.mpr short)]
  rfl

theorem reads_natural {size n : Nat} (h : n < 256 ^ size) :
    Reads (takeNatural size) (putNatural size n) fun rest => (n, rest) := by
  apply Reads.ofLength
  · intro rest
    rw [takeNatural, (reads_bytes (length_putNatural size n)).whole]
    simp only [Except.map, naturalOf_putNatural h]
  · intro input short
    rw [length_putNatural] at short
    exact ⟨.ended, takeNatural_ended short⟩

/-! ## Texts and lists of numbers -/

theorem reads_text {text : String} (h : (Text.Utf8.encode text).length < 256 ^ 8) :
    Reads takeText (putText text) fun rest => (text, rest) := by
  delta takeText putText
  refine (reads_natural h).bind (Reads.ofLength ?_ ?_)
  · intro rest
    simp
  · intro input short
    exact ⟨.textTooLong, if_pos short⟩

@[simp] theorem length_fields (words : List Nat) :
    (words.flatMap (putNatural 4)).length = 4 * words.length := by
  induction words with
  | nil => rfl
  | cons w words ih =>
    rw [List.flatMap_cons, List.length_append, length_putNatural, ih, List.length_cons]
    omega

theorem wordsOf_fields {words : List Nat} (h : ∀ w ∈ words, w < 256 ^ 4) (rest : Bytes) :
    wordsOf words.length (words.flatMap (putNatural 4) ++ rest) = words := by
  induction words with
  | nil => rfl
  | cons w words ih =>
    have field := length_putNatural 4 w
    rw [List.flatMap_cons, List.append_assoc, List.length_cons, wordsOf, List.take_left' field,
      List.drop_left' field, naturalOf_putNatural (h w (by simp)),
      ih fun v hv => h v (List.mem_cons_of_mem w hv)]

theorem reads_words {words : List Nat} (length : words.length < 256 ^ 8)
    (h : ∀ w ∈ words, w < 256 ^ 4) :
    Reads takeWords (putWords words) fun rest => (words, rest) := by
  delta takeWords putWords
  refine (reads_natural length).bind (Reads.ofLength ?_ ?_)
  · intro rest
    have fields := length_fields words
    have enough : ¬ (words.flatMap (putNatural 4) ++ rest).length < 4 * words.length := by
      rw [List.length_append, fields]
      omega
    dsimp only
    rw [if_neg enough, wordsOf_fields h, List.drop_left' fields]
  · intro input short
    rw [length_fields] at short
    exact ⟨.ended, if_pos short⟩

theorem wordsOf_lt {count w : Nat} {input : Bytes} (h : w ∈ wordsOf count input) : w < 256 ^ 4 := by
  induction count generalizing input with
  | zero => cases h
  | succ count ih =>
    rcases List.mem_cons.mp h with rfl | later
    · have field : (input.take 4).length ≤ 4 := List.length_take_le 4 input
      exact Nat.lt_of_lt_of_le (naturalOf_lt _) (Nat.pow_le_pow_right (by decide) field)
    · exact ih later

theorem takeWords_lt {input rest : Bytes} {words : List Nat} {w : Nat}
    (h : takeWords input = .ok (words, rest)) (hw : w ∈ words) : w < 256 ^ 4 := by
  obtain ⟨⟨count, fields⟩, -, taken⟩ := bind_eq_ok.mp h
  dsimp only at taken
  split at taken
  · cases taken
  · cases taken
    exact wordsOf_lt hw

end RoadFlow.Cache
