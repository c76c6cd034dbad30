import RoadFlow.Matrix.Fault
import RoadFlow.Matrix.Incidence
import RoadFlow.OdPair

/-!
# Assignment matrices

The traffic assignment matrix says which edges the route of each origin-destination pair uses. It
has a row for each edge and a column for each pair, and holds ones and zeros. A column is kept as
the ascending list of its marked edges.
-/

namespace RoadFlow

structure AssignmentMatrix where
  edgeCount : Nat
  clusterCount : Nat
  columns : Array (List EdgeId)
  deriving DecidableEq

namespace AssignmentMatrix

/-- The marked edges of a column, given in any order. -/
def checkColumn (edgeCount clusters : Nat) (edges : List EdgeId) (column : Nat) :
    Except MatrixFault (List EdgeId) :=
  if (OdPair.ofColumn column clusters).isDiagonal && !edges.isEmpty then
    .error (.diagonalNotEmpty column)
  else
    let sorted := Id.sortUnique edges
    match sorted.find? fun e => edgeCount ≤ e.index with
    | some e => .error (.edgeOutOfRange e.index edgeCount)
    | none => .ok sorted

/-- The matrix of a list of edges for each pair. The pairs of a cluster with itself use no edge. -/
def ofColumns (edgeCount clusters : Nat) (columns : List (List EdgeId)) :
    Except MatrixFault AssignmentMatrix :=
  let width := clusters * clusters
  if clusters = 0 then .error .noClusters
  else if columns.length ≠ width then .error (.shape ⟨"OD columns", width, columns.length⟩)
  else do
    let checked ← columns.zipIdx.mapM fun (edges, c) => checkColumn edgeCount clusters edges c
    return ⟨edgeCount, clusters, checked.toArray⟩

/-- The number of pairs. -/
def width (m : AssignmentMatrix) : Nat := m.clusterCount * m.clusterCount

def column (m : AssignmentMatrix) (c : Nat) : List EdgeId := m.columns.getD c []

/-- The edges on the route of a pair. -/
def edgesOf (m : AssignmentMatrix) (pair : OdPair) : List EdgeId :=
  m.column (pair.column m.clusterCount)

def marks (m : AssignmentMatrix) (e : EdgeId) (c : Nat) : Bool := (m.column c).contains e

/-- The number of ones. -/
def markCount (m : AssignmentMatrix) : Nat := m.columns.toList.flatten.length

/-- The columns that mark an edge, in ascending order. -/
def columnsOf (m : AssignmentMatrix) (e : EdgeId) : List Nat :=
  (List.range m.width).filter (m.marks e)

/-- The columns that mark each edge, found in one pass over all columns. -/
def columnsByEdge (m : AssignmentMatrix) : Array (List Nat) :=
  Incidence.holders m.edgeCount m.width fun c => (m.column c).map (·.index)

theorem contains_column (m : AssignmentMatrix) (e : EdgeId) (c : Nat) :
    ((m.column c).map (·.index)).contains e.index = m.marks e c := by
  rw [marks, Bool.eq_iff_iff]
  simp only [List.contains_eq_mem, decide_eq_true_eq, List.mem_map]
  constructor
  · rintro ⟨⟨_⟩, found, rfl⟩
    exact found
  · exact fun found => ⟨e, found, rfl⟩

theorem getElem?_columnsByEdge {m : AssignmentMatrix} {e : EdgeId} (he : e.index < m.edgeCount) :
    m.columnsByEdge[e.index]? = some (m.columnsOf e) := by
  rw [columnsByEdge, Incidence.getElem?_holders _ _ he]
  simp only [contains_column, columnsOf]

end AssignmentMatrix

end RoadFlow
