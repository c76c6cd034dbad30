import RoadFlow.Matrix.Assignment
import RoadFlow.Matrix.Grid

/-!
# Products with assignment matrices

An assignment matrix as a linear operator: it takes a flow for each pair to a flow on each edge, and
its transpose takes edges back to pairs. Sums run over the marked entries alone, in ascending order.
-/

namespace RoadFlow.AssignmentMatrix

variable {α : Type} [Scalar α]

/-- The entry of an edge and a pair. -/
def entry (m : AssignmentMatrix) (e : EdgeId) (pair : OdPair) : α :=
  if m.marks e (pair.column m.clusterCount) then 1 else 0

/-- The matrix with all its zeros. -/
def toDense (m : AssignmentMatrix) : Grid α :=
  .ofFn m.edgeCount m.width fun e c => if m.marks ⟨e⟩ c then 1 else 0

/-- The entries of an edge by origin and destination. -/
def toDensePairs (m : AssignmentMatrix) (e : EdgeId) : Grid α :=
  .ofFn m.clusterCount m.clusterCount fun i j =>
    if m.marks e (i * m.clusterCount + j) then 1 else 0

/-- The edge flows that pair flows add up to. -/
def times (m : AssignmentMatrix) (flows : Grid α) : Except MatrixFault (Grid α) :=
  if flows.rows ≠ m.width then .error (.shape ⟨"flow matrix rows", m.width, flows.rows⟩)
  else
    let chosen := m.columnsByEdge
    .ok (.ofRows m.edgeCount flows.cols fun e => flows.sumRows (chosen.getD e []))

/-- For each pair, the sum over the edges of its route. -/
def transposeTimes (m : AssignmentMatrix) (edges : Grid α) : Except MatrixFault (Grid α) :=
  if edges.rows ≠ m.edgeCount then .error (.shape ⟨"edge matrix rows", m.edgeCount, edges.rows⟩)
  else .ok (.ofRows m.width edges.cols fun c => edges.sumRows ((m.column c).map (·.index)))

end RoadFlow.AssignmentMatrix
