import RoadFlow.Matrix.Grid

/-!
# Entries of dense matrices

The entries of a matrix are listed row by row with their places (`Grid.mem_cells`,
`Grid.cells_ordered`).
-/

namespace RoadFlow

namespace Grid

variable {α : Type} {g : Grid α} {r h : Nat} {x : α}

theorem mem_cells : (r, h, x) ∈ g.cells ↔ g.get? r h = some x := by
  rw [cells, List.mem_flatMap, get?, Option.bind_eq_some_iff]
  constructor
  · rintro ⟨⟨row, i⟩, listed, member⟩
    obtain ⟨⟨y, j⟩, listed', same⟩ := List.mem_map.mp member
    cases same
    have row_at := List.mem_zipIdx_iff_getElem?.mp listed
    have entry_at := List.mem_zipIdx_iff_getElem?.mp listed'
    exact ⟨row, by simpa using row_at, by simpa using entry_at⟩
  · rintro ⟨row, row_at, entry_at⟩
    refine ⟨(row, r), List.mem_zipIdx_iff_getElem?.mpr (by simpa using row_at), ?_⟩
    exact List.mem_map.mpr ⟨(x, h), List.mem_zipIdx_iff_getElem?.mpr (by simpa using entry_at), rfl⟩

theorem lt_of_get? (cell : g.get? r h = some x) : r < g.rows ∧ h < g.cols := by
  obtain ⟨row, row_at, entry_at⟩ := Option.bind_eq_some_iff.mp cell
  exact ⟨(Vector.getElem?_eq_some_iff.mp row_at).1, (Vector.getElem?_eq_some_iff.mp entry_at).1⟩

theorem get?_eq [Scalar α] (hr : r < g.rows) (hc : h < g.cols) :
    g.get? r h = some (g.get r h) := by
  simp [get, get?, hr, hc]

theorem zipIdx_ordered {β : Type} (xs : List β) : xs.zipIdx.Pairwise (·.2 < ·.2) := by
  have places : (xs.zipIdx.map Prod.snd).Pairwise (· < ·) := by
    rw [List.zipIdx_map_snd]
    exact List.pairwise_lt_range'
  exact List.pairwise_map.mp places

/-- The entries stand row by row. -/
theorem cells_ordered :
    g.cells.Pairwise fun a b => a.1 < b.1 ∨ a.1 = b.1 ∧ a.2.1 < b.2.1 := by
  rw [cells, List.pairwise_flatMap]
  constructor
  · rintro ⟨row, i⟩ -
    rw [List.pairwise_map]
    apply (zipIdx_ordered row.toList).imp
    intro a b before
    exact .inr ⟨rfl, before⟩
  · apply (zipIdx_ordered g.row.toList).imp
    rintro a b before x in_a y in_b
    obtain ⟨_, -, rfl⟩ := List.mem_map.mp in_a
    obtain ⟨_, -, rfl⟩ := List.mem_map.mp in_b
    exact .inl before

end Grid

/-- What is found in an ordered list is the first of what could be found. -/
theorem find?_eq_first {β : Type} {R : β → β → Prop} {xs : List β} {p : β → Bool} {x : β}
    (ordered : xs.Pairwise R) (member : x ∈ xs) (hit : p x = true)
    (first : ∀ y ∈ xs, R y x → p y = false) : xs.find? p = some x := by
  obtain ⟨before, after, rfl⟩ := List.append_of_mem member
  rw [List.find?_eq_some_iff_append]
  refine ⟨hit, before, after, rfl, ?_⟩
  intro y earlier
  have precedes := (List.pairwise_append.mp ordered).2.2 y earlier x List.mem_cons_self
  rw [first y (List.mem_append_left _ earlier) precedes]
  rfl

end RoadFlow
