import Mathlib.Analysis.Real.Sqrt
import RoadFlow.Matrix.Product

/-!
# Products in exact arithmetic

Real numbers stand for arithmetic without rounding. Applied to flows of real numbers, a matrix gives
each edge the sum of the flows of the pairs that mark it (`times_ok`).
-/

namespace RoadFlow

/-- Arithmetic without rounding. -/
noncomputable instance : Scalar ℝ where
  toZero := inferInstance
  toOne := inferInstance
  toAdd := inferInstance
  toSub := inferInstance
  toMul := inferInstance
  toDiv := inferInstance
  ofNat n := n
  sqrt := Real.sqrt
  abs := abs
  lt x y := decide (x < y)
  isFinite _ := true
  atLeastZero x := max x 0

theorem foldl_add_eq {ι : Type} (xs : List ι) (f : ι → ℝ) (start : ℝ) :
    xs.foldl (fun sum x => sum + f x) start = start + (xs.map f).sum := by
  induction xs generalizing start with
  | nil => simp
  | cons x xs ih =>
    rw [List.foldl_cons, ih, List.map_cons, List.sum_cons, add_assoc]

theorem sum_map_filter {ι : Type} (xs : List ι) (p : ι → Bool) (f : ι → ℝ) :
    ((xs.filter p).map f).sum = (xs.map fun x => if p x then f x else 0).sum := by
  induction xs with
  | nil => rfl
  | cons x xs ih => by_cases h : p x = true <;> simp [h, ih]

namespace Grid

variable {g : Grid ℝ} {rows cols r c : Nat}

theorem get_of_lt (hr : r < g.rows) (hc : c < g.cols) : g.get r c = g.row[r][c] := by
  simp [get, get?, hr, hc]

theorem get_of_rows_le (hr : g.rows ≤ r) : g.get r c = 0 := by
  have : g.row[r]? = none := Vector.getElem?_eq_none hr
  simp [get, get?, this]

theorem get_of_cols_le (hc : g.cols ≤ c) : g.get r c = 0 := by
  rw [get, get?]
  cases g.row[r]? with
  | none => rfl
  | some row =>
    rw [Option.bind_some, Vector.getElem?_eq_none hc]
    rfl

theorem get_ofRows {f : Nat → Vector ℝ cols} (hr : r < rows) (hc : c < cols) :
    (ofRows rows cols f).get r c = (f r)[c] := by
  rw [get_of_lt (g := ofRows rows cols f) hr hc]
  simp [ofRows]

theorem getElem_sumRows (chosen : List Nat) (hc : c < g.cols) :
    (g.sumRows chosen)[c] = (chosen.map fun r => g.get r c).sum := by
  have entry (r : Nat) : (if h : r < g.row.toArray.size then g.row.toArray[r][c] else 0) =
      g.get r c := by
    split
    · rename_i h
      rw [get_of_lt (by simpa using h) hc]
      rfl
    · rename_i h
      rw [get_of_rows_le (by simpa using h)]
  rw [sumRows, sumChosen, Vector.getElem_ofFn]
  simp only [Fin.getElem_fin, entry]
  rw [foldl_add_eq, zero_add]

end Grid

namespace AssignmentMatrix

variable {m : AssignmentMatrix} {flows : Grid ℝ}

/-- The flow on each edge is the sum of the flows of the pairs that mark it. -/
theorem times_ok (rows : flows.rows = m.width) :
    ∃ onEdges : Grid ℝ, m.times flows = .ok onEdges ∧ onEdges.rows = m.edgeCount ∧
      onEdges.cols = flows.cols ∧ ∀ (e : EdgeId) (h : Nat), e.index < m.edgeCount →
        onEdges.get e.index h = ((m.columnsOf e).map fun c => flows.get c h).sum := by
  refine ⟨.ofRows m.edgeCount flows.cols fun e => flows.sumRows (m.columnsByEdge.getD e []),
    by rw [times, if_neg (not_not.mpr rows)], rfl, rfl, ?_⟩
  intro e h inside
  by_cases hc : h < flows.cols
  · rw [Grid.get_ofRows inside hc, Grid.getElem_sumRows _ hc,
      Array.getD_eq_getD_getElem?, getElem?_columnsByEdge inside]
    rfl
  · have outside := Nat.le_of_not_lt hc
    have none : (Grid.ofRows m.edgeCount flows.cols fun e =>
        flows.sumRows (m.columnsByEdge.getD e [])).get e.index h = 0 := Grid.get_of_cols_le outside
    rw [none]
    simp [Grid.get_of_cols_le outside]

end AssignmentMatrix

end RoadFlow
