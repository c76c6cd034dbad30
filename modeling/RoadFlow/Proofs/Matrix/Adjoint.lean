import Mathlib.LinearAlgebra.Matrix.Trace
import RoadFlow.Proofs.Matrix.Product
import RoadFlow.Proofs.Matrix.Scatter

/-!
# Sparse and dense products

The two products with an assignment matrix run over its marks alone. In exact arithmetic they are
the products with the dense matrix and with its transpose, and so adjoint: flows that are taken to
edges and weighed there come to the same as against the weights taken back to pairs
(`denseProducts`).
-/

namespace RoadFlow

namespace Grid

variable {x y : Grid ℝ} {rows cols : Nat}

/-- The entries of a dense matrix that has a known shape. -/
noncomputable def toMatrix (g : Grid ℝ) (rows cols : Nat) : Matrix (Fin rows) (Fin cols) ℝ :=
  Matrix.of fun r c => g.get r c

/-- A dense matrix has the shape and the entries of a given one. -/
structure Is (g : Grid ℝ) (a : Matrix (Fin rows) (Fin cols) ℝ) : Prop where
  height : g.rows = rows
  width : g.cols = cols
  entries : g.toMatrix rows cols = a

/-- The sum over all entries of the first matrix, each times the one that the second has there. -/
noncomputable def dot (x y : Grid ℝ) : ℝ :=
  ∑ r ∈ Finset.range x.rows, ∑ c ∈ Finset.range x.cols, x.get r c * y.get r c

theorem dot_eq_trace (height : x.rows = rows) (width : x.cols = cols) :
    x.dot y = ((x.toMatrix rows cols).transpose * y.toMatrix rows cols).trace := by
  subst height width
  rw [dot, Finset.sum_comm, Finset.sum_range, Matrix.trace]
  refine Finset.sum_congr rfl fun c _ => ?_
  rw [Finset.sum_range, Matrix.diag_apply, Matrix.mul_apply]
  rfl

theorem get_ofFn (f : Nat → Nat → ℝ) {r c : Nat} (hr : r < rows) (hc : c < cols) :
    (ofFn rows cols f).get r c = f r c := by
  rw [get, get?_ofFn f hr hc]
  rfl

end Grid

namespace AssignmentMatrix

variable {m : AssignmentMatrix} {flows edges : Grid ℝ}

noncomputable def dense (m : AssignmentMatrix) : Matrix (Fin m.edgeCount) (Fin m.width) ℝ :=
  (m.toDense : Grid ℝ).toMatrix m.edgeCount m.width

theorem dense_apply (e : Fin m.edgeCount) (c : Fin m.width) :
    m.dense e c = if m.marks ⟨e⟩ c then 1 else 0 :=
  Grid.get_ofFn _ e.isLt c.isLt

/-- Each edge takes up the flows of the pairs that mark it. -/
theorem times_is (rows : flows.rows = m.width) :
    ∃ onEdges : Grid ℝ, m.times flows = .ok onEdges ∧
      onEdges.Is (m.dense * flows.toMatrix m.width flows.cols) := by
  obtain ⟨onEdges, run, height, width, entries⟩ := times_ok rows
  refine ⟨onEdges, run, height, width, ?_⟩
  ext e h
  calc onEdges.get e h
      = ((List.range m.width).map fun c => if m.marks ⟨e⟩ c then flows.get c h else 0).sum := by
        rw [entries ⟨e⟩ h e.isLt, columnsOf, sum_map_filter]
    _ = ∑ c : Fin m.width, if m.marks ⟨e⟩ c then flows.get c h else 0 := by
        rw [← Finset.sum_range fun c => if m.marks ⟨e⟩ c then flows.get c h else 0]
        rfl
    _ = ∑ c : Fin m.width, m.dense e c * flows.get c h := by
        simp only [dense_apply, ite_mul, one_mul, zero_mul]

/-- Each pair takes up the values of the edges that it marks. -/
theorem transposeTimes_is (valid : m.Valid) (rows : edges.rows = m.edgeCount) :
    ∃ onPairs : Grid ℝ, m.transposeTimes edges = .ok onPairs ∧
      onPairs.Is (m.dense.transpose * edges.toMatrix m.edgeCount edges.cols) := by
  refine ⟨.ofRows m.width edges.cols fun c => edges.sumRows ((m.column c).map (·.index)),
    by rw [transposeTimes, if_neg (not_not.mpr rows)], rfl, rfl, ?_⟩
  ext c h
  let marked := (m.column c).map (·.index)
  have nodup : marked.Nodup := (valid.column c).1.nodup.map Id.index_injective
  have among : marked.toFinset = (Finset.range m.edgeCount).filter fun e => m.marks ⟨e⟩ c := by
    ext e
    rw [List.mem_toFinset, Finset.mem_filter, Finset.mem_range, ← contains_column,
      List.contains_iff_mem]
    refine ⟨fun mem => ⟨?_, mem⟩, And.right⟩
    obtain ⟨e, he, rfl⟩ := List.mem_map.mp mem
    exact (valid.column c).2 e he
  calc (Grid.ofRows m.width edges.cols fun c =>
        edges.sumRows ((m.column c).map (·.index))).get c h
      = (marked.map fun e => edges.get e h).sum := by
        rw [Grid.get_ofRows c.isLt h.isLt, Grid.getElem_sumRows _ h.isLt]
    _ = ∑ e ∈ Finset.range m.edgeCount, if m.marks ⟨e⟩ c then edges.get e h else 0 := by
        rw [← List.sum_toFinset _ nodup, among, Finset.sum_filter]
    _ = ∑ e : Fin m.edgeCount, m.dense e c * edges.get e h := by
        rw [Finset.sum_range]
        simp only [dense_apply, ite_mul, one_mul, zero_mul]

/-- Products by one mark after another, with a check on every index, and products with the dense
matrix. -/
structure DenseProducts (m : AssignmentMatrix) : Prop where
  scattered : ∀ flows : Grid ℝ, m.timesChecked flows = some (m.times flows)
  gathered : ∀ edges : Grid ℝ, m.transposeTimesChecked edges = some (m.transposeTimes edges)
  times_accepts : ∀ flows : Grid ℝ, (∃ onEdges, m.times flows = .ok onEdges) ↔
    flows.rows = m.width
  times_is : ∀ {flows onEdges : Grid ℝ}, m.times flows = .ok onEdges →
    onEdges.Is (m.dense * flows.toMatrix m.width flows.cols)
  transposeTimes_accepts : ∀ edges : Grid ℝ, (∃ onPairs, m.transposeTimes edges = .ok onPairs) ↔
    edges.rows = m.edgeCount
  transposeTimes_is : ∀ {edges onPairs : Grid ℝ}, m.transposeTimes edges = .ok onPairs →
    onPairs.Is (m.dense.transpose * edges.toMatrix m.edgeCount edges.cols)
  adjoint : ∀ {flows onEdges edges onPairs : Grid ℝ}, m.times flows = .ok onEdges →
    m.transposeTimes edges = .ok onPairs → flows.cols = edges.cols →
    onEdges.dot edges = flows.dot onPairs

theorem rows_of_times {onEdges : Grid ℝ} (h : m.times flows = .ok onEdges) :
    flows.rows = m.width := by
  by_contra other
  rw [times, if_pos other] at h
  cases h

theorem rows_of_transposeTimes {onPairs : Grid ℝ} (h : m.transposeTimes edges = .ok onPairs) :
    edges.rows = m.edgeCount := by
  by_contra other
  rw [transposeTimes, if_pos other] at h
  cases h

/-- Both products take what has the right number of rows, and give the dense products. -/
theorem denseProducts (valid : m.Valid) : m.DenseProducts := by
  have forth {flows onEdges : Grid ℝ} (h : m.times flows = .ok onEdges) :
      onEdges.Is (m.dense * flows.toMatrix m.width flows.cols) := by
    obtain ⟨_, run, is⟩ := times_is (rows_of_times h)
    cases h.symm.trans run
    exact is
  have back {edges onPairs : Grid ℝ} (h : m.transposeTimes edges = .ok onPairs) :
      onPairs.Is (m.dense.transpose * edges.toMatrix m.edgeCount edges.cols) := by
    obtain ⟨_, run, is⟩ := transposeTimes_is valid (rows_of_transposeTimes h)
    cases h.symm.trans run
    exact is
  refine ⟨timesChecked_eq valid, transposeTimesChecked_eq valid,
    fun flows => ⟨fun ⟨_, h⟩ => rows_of_times h, fun rows => ?_⟩, forth,
    fun edges => ⟨fun ⟨_, h⟩ => rows_of_transposeTimes h, fun rows => ?_⟩, back, ?_⟩
  · obtain ⟨onEdges, run, -⟩ := times_is rows
    exact ⟨onEdges, run⟩
  · obtain ⟨onPairs, run, -⟩ := transposeTimes_is valid rows
    exact ⟨onPairs, run⟩
  · intro flows onEdges edges onPairs run run' cols
    obtain ⟨height, width, entries⟩ := forth run
    obtain ⟨-, -, entries'⟩ := back run'
    rw [Grid.dot_eq_trace height width, Grid.dot_eq_trace (rows_of_times run) rfl, entries, cols,
      entries', Matrix.transpose_mul, Matrix.mul_assoc]

theorem denseProducts_sample : sample.Valid ∧ sample.DenseProducts :=
  ⟨sample_valid, denseProducts sample_valid⟩

end AssignmentMatrix

end RoadFlow
