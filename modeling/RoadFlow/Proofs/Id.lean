import Mathlib.Data.List.Nodup
import Mathlib.Data.List.Perm.Subperm
import RoadFlow.Id

/-!
# Identifiers

Distinct identifiers have distinct numbers, so those below a bound are no more than the bound.
Sorting keeps the identifiers there are and puts them in strictly ascending order
(`mem_sortUnique`, `ascending_sortUnique`), and each list has one such order.
-/

namespace RoadFlow.Id

variable {k : Entity} {a b : Id k} {ids : List (Id k)}

theorem index_injective : Function.Injective (Id.index : Id k → Nat) := by
  rintro ⟨i⟩ ⟨j⟩ same
  exact congrArg Id.mk same

theorem index_ne (h : a ≠ b) : a.index ≠ b.index := fun same => h (index_injective same)

theorem length_le_of_nodup {n : Nat} (nodup : ids.Nodup) (below : ∀ id ∈ ids, id.index < n) :
    ids.length ≤ n := by
  have inside : ids.map Id.index ⊆ List.range n := by
    intro i hi
    obtain ⟨id, hid, rfl⟩ := List.mem_map.mp hi
    exact List.mem_range.mpr (below id hid)
  have distinct := (List.nodup_map_iff index_injective).mpr nodup
  simpa using (List.subperm_of_subset distinct inside).length_le

/-! ## Ascending lists -/

/-- Each identifier stands before all higher ones, and none stands twice. -/
def Ascending (ids : List (Id k)) : Prop := ids.Pairwise (·.index < ·.index)

theorem ascending_range (n : Nat) : Ascending ((List.range n).map Id.mk : List (Id k)) :=
  List.pairwise_map.mpr List.pairwise_lt_range

theorem Ascending.nodup (h : Ascending ids) : ids.Nodup := by
  refine h.imp fun lower same => ?_
  rw [same] at lower
  exact Nat.lt_irrefl _ lower

theorem Ascending.ext {other : List (Id k)} (h : Ascending ids) (h' : Ascending other)
    (same : ∀ id, id ∈ ids ↔ id ∈ other) : ids = other := by
  have perm : ids.Perm other := (List.perm_ext_iff_of_nodup h.nodup h'.nodup).mpr same
  exact perm.eq_of_pairwise (fun _ _ _ _ below above => absurd below (Nat.lt_asymm above)) h h'

/-- Dropping repeats from an ordered list, `least` standing in front. -/
theorem eraseReps_loop (least : Id k) (ids done : List (Id k))
    (ordered : (least :: ids).Pairwise (·.index ≤ ·.index)) :
    ∃ kept, List.eraseRepsBy.loop (· == ·) least ids done = done.reverse ++ least :: kept ∧
      Ascending (least :: kept) ∧ ∀ id, id ∈ least :: kept ↔ id ∈ least :: ids := by
  induction ids generalizing least done with
  | nil =>
    refine ⟨[], ?_, List.pairwise_singleton _ _, fun _ => Iff.rfl⟩
    simp [List.eraseRepsBy.loop]
  | cons next ids ih =>
    obtain ⟨above, ordered'⟩ := List.pairwise_cons.mp ordered
    by_cases same : least = next
    · subst same
      obtain ⟨kept, eq, ascending, mem⟩ := ih least done ordered'
      refine ⟨kept, ?_, ascending, fun id => ?_⟩
      · simpa [List.eraseRepsBy.loop] using eq
      · rw [mem]
        simp
    · obtain ⟨kept, eq, ascending, mem⟩ := ih next (least :: done) ordered'
      have different : (least == next) = false := by simpa using same
      refine ⟨next :: kept, ?_, ?_, fun id => ?_⟩
      · rw [List.eraseRepsBy.loop, different]
        simpa using eq
      · refine List.pairwise_cons.mpr ⟨fun id hid => ?_, ascending⟩
        have le := above next (by simp)
        have ne := index_ne same
        rcases List.mem_cons.mp hid with rfl | later
        · omega
        · have := (List.pairwise_cons.mp ascending).1 id later
          omega
      · rw [List.mem_cons, mem, List.mem_cons (a := id) (b := least)]

theorem eraseReps_ordered (ordered : ids.Pairwise (·.index ≤ ·.index)) :
    Ascending ids.eraseReps ∧ ∀ id, id ∈ ids.eraseReps ↔ id ∈ ids := by
  cases ids with
  | nil => exact ⟨List.Pairwise.nil, fun _ => Iff.rfl⟩
  | cons least ids =>
    obtain ⟨kept, eq, ascending, mem⟩ := eraseReps_loop least ids [] ordered
    rw [List.eraseReps, List.eraseRepsBy, eq]
    exact ⟨ascending, mem⟩

theorem sorted_mergeSort (ids : List (Id k)) :
    (ids.mergeSort fun a b => a.index ≤ b.index).Pairwise (·.index ≤ ·.index) := by
  let before (a b : Id k) : Bool := a.index ≤ b.index
  have transitive (a b c : Id k) : before a b → before b c → before a c := by
    simpa [before] using Nat.le_trans
  have total (a b : Id k) : before a b || before b a := by
    simpa [before] using Nat.le_total _ _
  simpa [before] using List.pairwise_mergeSort transitive total ids

theorem ascending_sortUnique (ids : List (Id k)) : Ascending (sortUnique ids) :=
  (eraseReps_ordered (sorted_mergeSort ids)).1

@[simp] theorem mem_sortUnique : a ∈ sortUnique ids ↔ a ∈ ids := by
  rw [sortUnique, (eraseReps_ordered (sorted_mergeSort ids)).2, List.mem_mergeSort]

theorem sortUnique_of_ascending (h : Ascending ids) : sortUnique ids = ids :=
  (ascending_sortUnique ids).ext h fun _ => mem_sortUnique

theorem length_sortUnique_le (ids : List (Id k)) : (sortUnique ids).length ≤ ids.length :=
  (List.subperm_of_subset (ascending_sortUnique ids).nodup fun _ h => mem_sortUnique.mp h).length_le

/-- Sorting drops nothing where nothing stands twice. -/
theorem sortUnique_perm (nodup : ids.Nodup) : (sortUnique ids).Perm ids :=
  (List.perm_ext_iff_of_nodup (ascending_sortUnique ids).nodup nodup).mpr fun _ => mem_sortUnique

end RoadFlow.Id
