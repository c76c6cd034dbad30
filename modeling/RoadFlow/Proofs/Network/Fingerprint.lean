import Mathlib.Data.Nat.ModEq
import Mathlib.Data.Nat.Prime.Basic
import RoadFlow.Proofs.Cache.Saving
import RoadFlow.Proofs.Network.Construction

/-!
# What a fingerprint tells apart

The factor of the digest is odd, so that no step of it loses anything of the state it starts from
or of the word it takes in. A single changed word is therefore still seen at the end, however many
words come after it. Networks that differ in one number have different fingerprints, and neither
is given a matrix that was stored for the other; names and positions make no difference
(`Network.fingerprint_tells`).
-/

namespace RoadFlow

namespace Fingerprint

variable {s t v w : UInt64} {words others : List UInt64}

theorem odd_factor : Odd factor.toNat := by decide

/-- Multiplying by an odd number modulo a power of two can be undone. -/
theorem mul_factor_inj : s * factor = t * factor ↔ s = t := by
  constructor
  · intro same
    have coprime : Nat.Coprime (2 ^ 64) factor.toNat :=
      (Nat.coprime_two_left.mpr odd_factor).pow_left 64
    have congruent : s.toNat ≡ t.toNat [MOD 2 ^ 64] := by
      apply Nat.ModEq.cancel_right_of_coprime coprime
      have := congrArg UInt64.toNat same
      rwa [UInt64.toNat_mul, UInt64.toNat_mul] at this
    apply UInt64.toNat_inj.mp
    exact congruent.eq_of_lt_of_lt s.toNat_lt t.toNat_lt
  · rintro rfl
    rfl

theorem absorb_left_inj : absorb s w = absorb t w ↔ s = t :=
  mul_factor_inj.trans (UInt64.add_left_inj w)

theorem absorb_right_inj : absorb s v = absorb s w ↔ v = w :=
  mul_factor_inj.trans (UInt64.add_right_inj s)

/-- Words that are absorbed later leave different states different. -/
theorem foldl_absorb_inj : words.foldl absorb s = words.foldl absorb t ↔ s = t := by
  induction words generalizing s t with
  | nil => exact Iff.rfl
  | cons w words ih => exact ih.trans absorb_left_inj

theorem rotate_inj : rotate s = rotate t ↔ s = t := by
  constructor
  · intro same
    have back (s : UInt64) : rotate s >>> 26 ||| rotate s <<< 38 = s := by
      apply UInt64.eq_of_toBitVec_eq
      ext i hi
      simp [rotate]
      grind
    rw [← back s, same, back]
  · rintro rfl
    rfl

/-- The second list is the first with another word in one place. -/
def OneWord (words others : List UInt64) : Prop :=
  ∃ front v w rest, v ≠ w ∧ words = front ++ v :: rest ∧ others = front ++ w :: rest

theorem OneWord.within (h : OneWord words others) (front rest : List UInt64) :
    OneWord (front ++ words ++ rest) (front ++ others ++ rest) := by
  obtain ⟨before, v, w, after, different, rfl, rfl⟩ := h
  exact ⟨front ++ before, v, w, after ++ rest, different, by simp, by simp⟩

theorem OneWord.digest_ne (h : OneWord words others) : digest words ≠ digest others := by
  obtain ⟨front, v, w, rest, different, rfl, rfl⟩ := h
  intro same
  rw [digest, digest, List.foldl_append, List.foldl_append, List.foldl_cons, List.foldl_cons,
    foldl_absorb_inj, absorb_right_inj] at same
  exact different same

end Fingerprint

open Fingerprint (OneWord)

/-- What of an edge enters a fingerprint: its ends, and the bits of its length. -/
def Edge.course (e : Edge) : NodeId × NodeId × UInt64 := (e.source, e.target, e.length.toBits)

/-- The edges differ in one end, or in the bits of their lengths, and otherwise only in name. -/
inductive Edge.Edited (x y : Edge) : Prop
  | source : x.source ≠ y.source → x.target = y.target → x.length.toBits = y.length.toBits →
      Edited x y
  | target : x.source = y.source → x.target ≠ y.target → x.length.toBits = y.length.toBits →
      Edited x y
  | length : x.source = y.source → x.target = y.target → x.length.toBits ≠ y.length.toBits →
      Edited x y

namespace Network

variable {a b : Network} {x y : Edge}

/-- The networks have as many edges, and differ in the number of nodes or in one edge, but for that
only in names and positions. -/
inductive Edited (a b : Network) : Prop
  | nodes : a.nodeCount ≠ b.nodeCount →
      a.edges.toList.map Edge.course = b.edges.toList.map Edge.course → Edited a b
  | edge {e : EdgeId} {x y : Edge} : a.nodeCount = b.nodeCount → a.edgeCount = b.edgeCount →
      a.edge? e = some x → b.edge? e = some y → x.Edited y →
      (∀ f, f ≠ e → (a.edge? f).map Edge.course = (b.edge? f).map Edge.course) → Edited a b

/-- The networks differ only in names and positions. -/
structure SameCourses (a b : Network) : Prop where
  nodes : a.nodeCount = b.nodeCount
  edges : a.edges.toList.map Edge.course = b.edges.toList.map Edge.course

/-! ## Words -/

theorem flatMap_edgeWords {xs ys : List Edge} (same : xs.map Edge.course = ys.map Edge.course) :
    xs.flatMap edgeWords = ys.flatMap edgeWords := by
  let words (c : NodeId × NodeId × UInt64) : List UInt64 :=
    [c.1.index.toUInt64, c.2.1.index.toUInt64, c.2.2]
  have read (edges : List Edge) :
      edges.flatMap edgeWords = (edges.map Edge.course).flatMap words := by
    rw [List.flatMap_map]
    rfl
  rw [read, read, same]

theorem toUInt64_inj {i j : Nat} (hi : i < 2 ^ 64) (hj : j < 2 ^ 64) :
    i.toUInt64 = j.toUInt64 ↔ i = j := by
  constructor
  · intro same
    have numbers := congrArg UInt64.toNat same
    rwa [UInt64.toNat_ofNat_of_lt' hi, UInt64.toNat_ofNat_of_lt' hj] at numbers
  · rintro rfl
    rfl

theorem toUInt64_index_ne {m n : NodeId} (hm : m.index < 2 ^ 64) (hn : n.index < 2 ^ 64)
    (different : m ≠ n) : m.index.toUInt64 ≠ n.index.toUInt64 := by
  intro same
  exact Id.index_ne different ((toUInt64_inj hm hn).mp same)

/-- Nodes are counted in 64 bits, and so are the ends of edges. -/
theorem Built.ends_small (built : a.Built) (small : a.nodeCount < 2 ^ 64) {e : EdgeId}
    (held : a.edge? e = some x) : x.source.index < 2 ^ 64 ∧ x.target.index < 2 ^ 64 :=
  ⟨Nat.lt_trans (built.sound.source_lt held) small, Nat.lt_trans (built.sound.target_lt held) small⟩

theorem oneWord_edgeWords (edited : x.Edited y)
    (hx : x.source.index < 2 ^ 64 ∧ x.target.index < 2 ^ 64)
    (hy : y.source.index < 2 ^ 64 ∧ y.target.index < 2 ^ 64) :
    OneWord (edgeWords x) (edgeWords y) := by
  cases edited with
  | source source target length =>
    exact ⟨[], _, _, _, toUInt64_index_ne hx.1 hy.1 source, rfl, by simp [edgeWords, target, length]⟩
  | target source target length =>
    exact ⟨[_], _, _, _, toUInt64_index_ne hx.2 hy.2 target, rfl, by simp [edgeWords, source, length]⟩
  | length source target length =>
    exact ⟨[_, _], _, _, _, length, rfl, by simp [edgeWords, source, target]⟩

theorem SameCourses.structureWords (same : a.SameCourses b) :
    a.structureWords = b.structureWords := by
  have edges : a.edgeCount = b.edgeCount := by
    simpa [edgeCount] using congrArg List.length same.edges
  rw [Network.structureWords, Network.structureWords, same.nodes, edges,
    flatMap_edgeWords same.edges]

/-- Around an edge, networks that agree on all others have edges of the same courses. -/
theorem courses_around {e : EdgeId}
    (others : ∀ f, f ≠ e → (a.edge? f).map Edge.course = (b.edge? f).map Edge.course) :
    (a.edges.toList.take e.index).map Edge.course =
        (b.edges.toList.take e.index).map Edge.course ∧
      (a.edges.toList.drop (e.index + 1)).map Edge.course =
        (b.edges.toList.drop (e.index + 1)).map Edge.course := by
  have apart (i : Nat) (away : i ≠ e.index) :
      a.edges.toList[i]?.map Edge.course = b.edges.toList[i]?.map Edge.course := by
    have same := others ⟨i⟩ fun here => away (congrArg Id.index here)
    simpa only [edge?, Array.getElem?_toList] using same
  constructor
  · apply List.ext_getElem?
    intro i
    rw [List.getElem?_map, List.getElem?_map, List.getElem?_take, List.getElem?_take]
    split
    · exact apart i (by omega)
    · rfl
  · apply List.ext_getElem?
    intro i
    rw [List.getElem?_map, List.getElem?_map, List.getElem?_drop, List.getElem?_drop]
    exact apart _ (by omega)

/-- The words of a network, those of one edge in their place. -/
theorem structureWords_around {e : EdgeId} (held : a.edge? e = some x) :
    a.structureWords =
      (a.nodeCount.toUInt64 :: a.edgeCount.toUInt64 ::
        (a.edges.toList.take e.index).flatMap edgeWords) ++ edgeWords x ++
      (a.edges.toList.drop (e.index + 1)).flatMap edgeWords := by
  have parts : a.edges.toList =
      a.edges.toList.take e.index ++ x :: a.edges.toList.drop (e.index + 1) := by
    have place : a.edges.toList[e.index]? = some x := by simpa [edge?] using held
    obtain ⟨inside, rfl⟩ := List.getElem?_eq_some_iff.mp place
    rw [← List.drop_eq_getElem_cons, List.take_append_drop]
  rw [structureWords]
  nth_rewrite 1 [parts]
  simp

theorem Edited.oneWord (edited : a.Edited b) (left : a.Built) (right : b.Built)
    (small : a.nodeCount < 2 ^ 64) (small' : b.nodeCount < 2 ^ 64) :
    OneWord a.structureWords b.structureWords := by
  cases edited with
  | nodes different edges =>
    have counts : a.edgeCount = b.edgeCount := by
      simpa [edgeCount] using congrArg List.length edges
    have other : a.nodeCount.toUInt64 ≠ b.nodeCount.toUInt64 :=
      mt (toUInt64_inj small small').mp different
    refine ⟨[], _, _, _, other, rfl, ?_⟩
    rw [structureWords, counts, flatMap_edgeWords edges]
    rfl
  | edge nodes edges hx hy edited others =>
    have word := oneWord_edgeWords edited (left.ends_small small hx) (right.ends_small small' hy)
    obtain ⟨front, rest⟩ := courses_around others
    rw [structureWords_around hx, structureWords_around hy, nodes, edges,
      flatMap_edgeWords front, flatMap_edgeWords rest]
    exact word.within _ _

/-! ## Networks -/

theorem fingerprint_eq_of_structureWords (same : a.structureWords = b.structureWords) :
    a.fingerprint = b.fingerprint := by
  rw [fingerprint, fingerprint, same]

theorem fingerprint_ne (edited : a.Edited b) (left : a.Built) (right : b.Built)
    (small : a.nodeCount < 2 ^ 64) (small' : b.nodeCount < 2 ^ 64) :
    a.fingerprint ≠ b.fingerprint := by
  intro same
  have digests := Fingerprint.rotate_inj.mp same
  exact (edited.oneWord left right small small').digest_ne digests

end Network

/-! ## Stored matrices -/

namespace Cache

open Storage (FileTree Path)

/-- An archive for another fingerprint is stale, whatever else it holds. -/
theorem read_other_fingerprint {key : Key} {bytes : Bytes} {archive : Archive}
    (decoded : Archive.decode bytes = .ok archive)
    (other : archive.fingerprint ≠ key.fingerprint.toNat) :
    ∃ reason, read key bytes = .error (.stale reason) := by
  rw [read, decoded]
  cases differs : archive.mismatch? key with
  | none =>
    unfold Archive.mismatch? at differs
    grind
  | some reason =>
    refine ⟨reason, ?_⟩
    simp only [Except.mapError, bind, Except.bind, differs]

/-- Nothing that was stored for the second network is loaded for the first: no archive that has its
fingerprint, and no matrix that was saved for it. -/
structure Refuses (a b : Network) : Prop where
  archive : ∀ {files : FileTree} {path : Path} {bytes : Bytes} {archive : Archive}
    (clusters : Nat) (policy : Policy), files.read path = .ok bytes →
    Archive.decode bytes = .ok archive → archive.fingerprint = b.fingerprint.toNat →
    ∃ reason, load files path (.ofNetwork a clusters policy) = .error (.stale reason)
  saved : ∀ {files files' : FileTree} {path : Path} {m : AssignmentMatrix} {clusters : Nat}
    {policy : Policy} (clusters' : Nat) (policy' : Policy), m.Valid →
    Archive.Storable b.name m →
    save files path m (.ofNetwork b clusters policy) = (files', .ok ()) →
    ∃ reason, load files' path (.ofNetwork a clusters' policy') = .error (.stale reason)

theorem refuses_of_fingerprint_ne {a b : Network} (different : a.fingerprint ≠ b.fingerprint) :
    Refuses a b where
  archive clusters policy held decoded stored := by
    rw [load_held held]
    apply read_other_fingerprint decoded
    intro same
    rw [stored, UInt64.toNat_inj] at same
    exact different same.symm
  saved clusters policy valid storable saved := by
    obtain ⟨bytes, written, -⟩ := save_eq_ok.mp saved
    rw [load_held (read_save written saved)]
    apply read_write_other written valid storable
    intro same
    exact different (congrArg Key.fingerprint same).symm

end Cache

namespace Network

/-- Networks that differ in the number of nodes, or in an end or the length of one edge, have
different fingerprints, so that nothing stored for one is loaded for the other. Networks that differ
in names and positions only have one fingerprint. Sizes are numbers of 64 bits. -/
theorem fingerprint_tells {a b : Network} (left : a.Built) (right : b.Built)
    (small : a.nodeCount < 2 ^ 64) (small' : b.nodeCount < 2 ^ 64) :
    (a.Edited b → a.fingerprint ≠ b.fingerprint ∧ Cache.Refuses a b) ∧
      (a.SameCourses b → a.fingerprint = b.fingerprint) := by
  constructor
  · intro edited
    have different := fingerprint_ne edited left right small small'
    exact ⟨different, Cache.refuses_of_fingerprint_ne different⟩
  · intro same
    exact fingerprint_eq_of_structureWords same.structureWords

/-- The sample network with other names and a longer edge. -/
def longer : Network :=
  (Builder.filled
    [⟨"A", ⟨0, 0⟩⟩, ⟨"B", ⟨5, 0⟩⟩, ⟨"C", ⟨0, 1⟩⟩]
    [⟨"AB", ⟨0⟩, ⟨1⟩, 1⟩, ⟨"again", ⟨0⟩, ⟨1⟩, 2⟩, ⟨"loop", ⟨1⟩, ⟨1⟩, 0⟩, ⟨"BA", ⟨1⟩, ⟨0⟩, 0⟩]).build
    "longer"

theorem longer_built : longer.Built :=
  built_filled ⟨by decide, by decide, by decide, by decide, by decide⟩ "longer"

theorem longer_edited : sample.Edited longer := by
  have past {net : Network} (four : net.edgeCount = 4) (i : Nat) : net.edge? ⟨i + 4⟩ = none := by
    apply Array.getElem?_eq_none
    show net.edgeCount ≤ i + 4
    omega
  have was : sample.edge? ⟨1⟩ = some ⟨"again", ⟨0⟩, ⟨1⟩, 1⟩ := by decide
  have now : longer.edge? ⟨1⟩ = some ⟨"again", ⟨0⟩, ⟨1⟩, 2⟩ := by decide
  refine .edge (by decide) (by decide) was now (.length rfl rfl (by decide)) ?_
  rintro ⟨i⟩ other
  match i with
  | 0 | 2 | 3 => decide
  | 1 => exact absurd rfl other
  | i + 4 => rw [past (by decide), past (by decide)]

theorem fingerprint_tells_sample :
    sample.fingerprint ≠ longer.fingerprint ∧ Cache.Refuses sample longer :=
  (fingerprint_tells sample_built longer_built (by decide) (by decide)).1 longer_edited

end Network

end RoadFlow
