import RoadFlow.Cluster.Clustering
import RoadFlow.Hour
import RoadFlow.Matrix.Product
import RoadFlow.Network.Builder
import RoadFlow.Scenario.Exponential

/-!
# The grid town

A built-in scenario: a square grid of streets, each with an edge either way, split into four
quadrants. Cluster 0 is where people live and cluster 3 where they work; counts come from a known
pattern of commuting, seen on every third edge.
-/

namespace RoadFlow.GridTown

def name : String := "toy_grid"

def side : Nat := 6

def clusterCount : Nat := 4

/-- Metres between crossings. -/
def blockLength : Float := 250

/-- Every so many edges carry a counter. -/
def sensorSpacing : Nat := 3

def baseFlow : Float32 := 4

def nodeAt (row column : Nat) : NodeId := ⟨row * side + column⟩

/-- The crossings row by row. -/
def crossings : List (Nat × Nat) :=
  (List.range side).flatMap fun r => (List.range side).map fun c => (r, c)

def addCrossing (b : Builder) (r c : Nat) : Except NetworkFault Builder :=
  let position : Point := ⟨Float.ofNat c * blockLength, Float.ofNat r * blockLength⟩
  (b.addNode s!"n{r}_{c}" position).map (·.2)

/-- Adds a street between two crossings, an edge either way. -/
def addStreet (b : Builder) (a c : NodeId) : Except NetworkFault Builder := do
  let k := b.edges.size
  let (_, b) ← b.addEdge s!"l{k}" a c blockLength
  let (_, b) ← b.addEdge s!"l{k + 1}" c a blockLength
  return b

/-- Adds the streets that leave a crossing to the east and to the south. -/
def addStreets (b : Builder) (r c : Nat) : Except NetworkFault Builder := do
  let b ← if c + 1 < side then addStreet b (nodeAt r c) (nodeAt r (c + 1)) else .ok b
  if r + 1 < side then addStreet b (nodeAt r c) (nodeAt (r + 1) c) else .ok b

def network : Except NetworkFault Network := do
  let b ← crossings.foldlM (fun b (r, c) => addCrossing b r c) Builder.empty
  let b ← crossings.foldlM (fun b (r, c) => addStreets b r c) b
  return b.build name

/-- The quadrant of a crossing: 0 and 1 in the north, 2 and 3 in the south, west before east. -/
def quadrant (r c : Nat) : Nat :=
  (if side / 2 ≤ r then 2 else 0) + (if side / 2 ≤ c then 1 else 0)

def clusters (net : Network) : Except MatrixFault Clustering :=
  Clustering.ofLabels net (crossings.map fun (r, c) => quadrant r c) clusterCount

/-- The demand of an hour relative to others: a floor, a morning peak and an evening peak. -/
def demand (hour : Nat) : Float32 :=
  let bump (centre : Float32) : Float32 :=
    let d := Float32.ofNat hour - centre
    Exponential.single (-(d * d) / 4)
  0.2 + 2 * bump 8 + 2 * bump 17

/-- How much more than others a pair of clusters travels. -/
def weight (origin destination : Nat) : Float32 :=
  if (origin = 0 ∧ destination = 3) ∨ (origin = 3 ∧ destination = 0) then 3 else 1

/-- The flows from which the counts come. -/
def flows : Grid Float32 :=
  .ofFn (clusterCount * clusterCount) hoursPerDay fun c h =>
    let (origin, destination) := (c / clusterCount, c % clusterCount)
    if origin = destination then 0 else baseFlow * weight origin destination * demand h

/-- The edges with counters. -/
def sensors (edgeCount : Nat) : List EdgeId :=
  ((List.range edgeCount).filter fun e => e % sensorSpacing = 0).map (⟨·⟩)

/-- The counts on all edges, and the edges on which they are seen. -/
def counts (m : AssignmentMatrix) : Except MatrixFault (Grid Float32 × List EdgeId) :=
  (m.times flows).map (·, sensors m.edgeCount)

end RoadFlow.GridTown
