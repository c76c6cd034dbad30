import RoadFlow.Cluster.Clustering
import RoadFlow.Journal
import RoadFlow.Matrix.Assignment
import RoadFlow.Route.Policy

/-!
# Assembling assignment matrices

One search from each centroid gives the routes from its cluster to all others. Pairs without a route
keep an empty column and are reported.
-/

namespace RoadFlow

/-- What an assembly did: the policy, the number of searches, the number of ones, and the pairs
without a route in the order of their columns. -/
structure AssemblySurvey where
  policy : Policy
  searches : Nat
  marks : Nat
  unreachable : List OdPair
  deriving DecidableEq

structure Assembly where
  matrix : AssignmentMatrix
  survey : AssemblySurvey
  deriving DecidableEq

/-- The columns of one origin and the pairs among them that have no route. -/
structure RouteBlock where
  columns : List (List EdgeId)
  unreachable : List OdPair
  deriving DecidableEq

namespace Assembly

variable {α : Type} [PathCost α]

/-- The edges of the route to one destination, and the pair if it has none. -/
def pairBlock (clusters : Clustering) (tree : PathTree α) (origin destination : ClusterId) :
    Except MatrixFault RouteBlock :=
  let pair : OdPair := ⟨origin, destination⟩
  if pair.isDiagonal then .ok ⟨[[]], []⟩
  else match tree.path (clusters.centroidOf destination) with
    | .ok edges => .ok ⟨[edges], []⟩
    | .error (.noPath ..) => .ok ⟨[[]], [pair]⟩
    | .error fault => .error (.network fault)

/-- Blocks one after the other. -/
def joinBlocks (blocks : List RouteBlock) : RouteBlock :=
  ⟨blocks.flatMap (·.columns), blocks.flatMap (·.unreachable)⟩

/-- All routes from one origin. -/
def blocksFrom (engine : Engine α) (net : Network) (clusters : Clustering) (origin : ClusterId) :
    Except MatrixFault RouteBlock := do
  let tree ← (engine.search net (clusters.centroidOf origin)).mapError .network
  let blocks ← clusters.clusters.mapM (pairBlock clusters tree origin)
  return joinBlocks blocks

/-- Assembles the matrix with a given search. -/
def ofEngine (engine : Engine α) (net : Network) (clusters : Clustering) :
    Except MatrixFault Assembly := do
  if clusters.nodeCount ≠ net.nodeCount then
    .error (.shape ⟨"cluster assignment nodes", net.nodeCount, clusters.nodeCount⟩)
  else
    clusters.centroids.toList.forM fun n => (net.checkNode n).mapError .network
    let blocks ← clusters.clusters.mapM (blocksFrom engine net clusters)
    let all := joinBlocks blocks
    let matrix ← AssignmentMatrix.ofColumns net.edgeCount clusters.clusterCount all.columns
    return ⟨matrix, ⟨engine.policy, clusters.clusterCount, matrix.markCount, all.unreachable⟩⟩

/-- The slots of the blocks after one more search: a block goes into the slot of its origin. -/
def fillSlot (engine : Engine α) (net : Network) (clusters : Clustering)
    (slots : Array (Option RouteBlock)) (origin : ClusterId) :
    Except MatrixFault (Array (Option RouteBlock)) := do
  let block ← blocksFrom engine net clusters origin
  return slots.setIfInBounds origin.index (some block)

/-- The blocks in the order of their origins, the searches run in another. -/
def blocksInOrder (engine : Engine α) (net : Network) (clusters : Clustering)
    (order : List ClusterId) : Except MatrixFault (List RouteBlock) := do
  let slots ← order.foldlM (fillSlot engine net clusters)
    (Array.replicate clusters.clusterCount none)
  return slots.toList.filterMap id

/-- Assembles the matrix of some blocks, after the checks that come before all searches. -/
def withBlocks (policy : Policy) (net : Network) (clusters : Clustering)
    (blocks : Except MatrixFault (List RouteBlock)) : Except MatrixFault Assembly := do
  if clusters.nodeCount ≠ net.nodeCount then
    .error (.shape ⟨"cluster assignment nodes", net.nodeCount, clusters.nodeCount⟩)
  else
    clusters.centroids.toList.forM fun n => (net.checkNode n).mapError .network
    let all := joinBlocks (← blocks)
    let matrix ← AssignmentMatrix.ofColumns net.edgeCount clusters.clusterCount all.columns
    return ⟨matrix, ⟨policy, clusters.clusterCount, matrix.markCount, all.unreachable⟩⟩

/-- Assembles the matrix with a given search, run from the centroids in a given order. -/
def ofEngineInOrder (engine : Engine α) (net : Network) (clusters : Clustering)
    (order : List ClusterId) : Except MatrixFault Assembly :=
  withBlocks engine.policy net clusters (blocksInOrder engine net clusters order)

/-- Assembles the matrix with the search of a policy. -/
def ofPolicy (net : Network) (clusters : Clustering) (policy : Policy) :
    Except MatrixFault Assembly :=
  ofEngine policy.engine net clusters

/-- The warning that an assembly gives. -/
def warnings (a : Assembly) : Journal :=
  let count := a.survey.unreachable.length
  let z := a.matrix.clusterCount
  if count = 0 then #[]
  else #[⟨.warn,
    s!"{count} of {z * (z - 1)} cluster pairs are unreachable; their TAM columns are empty"⟩]

end Assembly

end RoadFlow
