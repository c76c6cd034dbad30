import RoadFlow.Matrix.Fault
import RoadFlow.Network.Nearest

/-!
# Clusterings

A partition of a network's nodes into clusters, none of them empty, each with one node of the
network as its centroid.
-/

namespace RoadFlow

structure Clustering where
  clusterOf : Array ClusterId
  centroids : Array NodeId
  /-- The nodes of each cluster in ascending order. -/
  members : Array (Array NodeId)
  deriving DecidableEq

/-- The cluster of each node and the nodes of each cluster. -/
structure Grouping where
  clusterOf : Array ClusterId
  members : Array (Array NodeId)

namespace Grouping

/-- Puts the next node into the cluster of its label. -/
def add (clusters : Nat) (g : Grouping) (label : Nat) : Except MatrixFault Grouping :=
  let node := g.clusterOf.size
  if clusters ≤ label then .error (.labelOutOfRange node label clusters)
  else .ok ⟨g.clusterOf.push ⟨label⟩, g.members.modify label (·.push ⟨node⟩)⟩

/-- Groups the nodes of a network by their labels. -/
def ofLabels (net : Network) (labels : List Nat) (clusters : Nat) : Except MatrixFault Grouping :=
  if clusters = 0 then .error .noClusters
  else if labels.length ≠ net.nodeCount then
    .error (.shape ⟨"cluster labels", net.nodeCount, labels.length⟩)
  else do
    let g ← labels.foldlM (add clusters) ⟨#[], Array.replicate clusters #[]⟩
    match g.members.toList.findIdx? Array.isEmpty with
    | some c => .error (.emptyCluster ⟨c⟩)
    | none => .ok g

end Grouping

namespace Clustering

def clusterCount (c : Clustering) : Nat := c.centroids.size

def nodeCount (c : Clustering) : Nat := c.clusterOf.size

def clusters (c : Clustering) : List ClusterId := (List.range c.clusterCount).map (⟨·⟩)

def membersOf (c : Clustering) (cluster : ClusterId) : Array NodeId :=
  c.members.getD cluster.index #[]

/-- The centroid of a cluster. Numbers that no cluster has go to no node. -/
def centroidOf (c : Clustering) (cluster : ClusterId) : NodeId :=
  c.centroids.getD cluster.index Id.invalid

/-- The node of the whole network nearest to the mean position of some nodes. -/
def centroidOfNodes? (net : Network) (nodes : Array NodeId) : Option NodeId :=
  (Point.centroid? (nodes.toList.filterMap fun n => net.nodes[n.index]?.map (·.position))).bind
    net.nearest?

/-- The clustering of some labels, with the centroids that positions give. -/
def ofLabels (net : Network) (labels : List Nat) (clusters : Nat) :
    Except MatrixFault Clustering := do
  let g ← Grouping.ofLabels net labels clusters
  let centroids ← g.members.toList.zipIdx.mapM fun (nodes, c) =>
    match centroidOfNodes? net nodes with
    | some n => .ok n
    | none => .error (MatrixFault.emptyCluster ⟨c⟩)
  return ⟨g.clusterOf, centroids.toArray, g.members⟩

/-- The clustering of some labels with chosen centroids, one for each cluster. -/
def ofCentroids (net : Network) (labels : List Nat) (centroids : List NodeId) :
    Except MatrixFault Clustering := do
  let g ← Grouping.ofLabels net labels centroids.length
  centroids.forM fun n => (net.checkNode n).mapError .network
  return ⟨g.clusterOf, centroids.toArray, g.members⟩

end Clustering

end RoadFlow
