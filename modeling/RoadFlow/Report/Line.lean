import RoadFlow.Fit.State
import RoadFlow.Trip

/-!
# Lines of a report

What a report of a fit says, one line at a time. Nodes and edges go by their names. Metrics are
lines as they are.
-/

namespace RoadFlow

/-- The flow of a pair in an hour. -/
structure PairLine where
  origin : Nat
  destination : Nat
  hour : Nat
  flow : Float32
  deriving DecidableEq

/-- The predicted flow on an edge in an hour. -/
structure EdgeLine where
  edge : String
  hour : Nat
  flow : Float32
  deriving DecidableEq

/-- A node of a cluster. -/
structure ClusterLine where
  cluster : Nat
  node : String
  deriving DecidableEq

/-- A trip with its clock times. -/
structure TripLine where
  number : Nat
  origin : String
  destination : String
  departure : String
  returnTime : String
  deriving DecidableEq

/-- Every flow of a snapshot, by origin, destination and hour. -/
def pairLines (f : Flows Float32) : List PairLine :=
  let clusters := List.range f.clusterCount
  clusters.flatMap fun i => clusters.flatMap fun j => Hour.all.map fun h =>
    ⟨i, j, h.index, f.pairs.get (i * f.clusterCount + j) h.index⟩

/-- Every flow of a prediction for the edges of a network. Hours keep the low eight bits of their
numbers. -/
def edgeLines (net : Network) (predicted : Grid Float32) : Except ShapeFault (List EdgeLine) :=
  if predicted.rows ≠ net.edgeCount then
    .error ⟨"predicted link flow rows", net.edgeCount, predicted.rows⟩
  else .ok (predicted.cells.map fun (e, h, flow) => ⟨net.edgeName ⟨e⟩, h % twoTo 8, flow⟩)

/-- The nodes of every cluster. -/
def clusterLines (net : Network) (clusters : Clustering) : List ClusterLine :=
  clusters.clusters.flatMap fun c =>
    (clusters.membersOf c).toList.map fun n => ⟨c.index, net.nodeName n⟩

def tripLines (net : Network) (trips : List Trip) : List TripLine :=
  trips.map fun t => ⟨t.number, net.nodeName t.originNode, net.nodeName t.destinationNode,
    t.departureTime, t.returnTime⟩

end RoadFlow
