import RoadFlow.Network.Fault
import RoadFlow.Route.Cost

/-!
# Path trees

The result of a search from one node: for each node reached, the cost of the path found and the
edge by which the path enters the node. Paths are read off backwards.
-/

namespace RoadFlow

/-- How a path enters a node: the node before it and the edge between them. -/
structure Entry where
  node : NodeId
  edge : EdgeId
  deriving DecidableEq

structure PathTree (α : Type) where
  source : NodeId
  cost : Array α
  entry : Array (Option Entry)

/-- The edges of a path in the order of travel, and their cost. -/
structure Route (α : Type) where
  edges : List EdgeId
  cost : α

namespace PathTree

variable {α : Type} [PathCost α]

/-- The tree that has reached nothing but its source. -/
def start (source : NodeId) (nodeCount : Nat) : PathTree α :=
  { source
    cost := (Array.replicate nodeCount PathCost.unreached).setIfInBounds source.index 0
    entry := Array.replicate nodeCount none }

def nodeCount (t : PathTree α) : Nat := t.cost.size

/-- The cost held for a node, whether or not it was reached. -/
def costAt (t : PathTree α) (n : NodeId) : α := t.cost.getD n.index PathCost.unreached

/-- The cost of the path to a node, if there is one. -/
def distance? (t : PathTree α) (n : NodeId) : Option α :=
  t.cost[n.index]?.filter PathCost.isFinite

def isReached (t : PathTree α) (n : NodeId) : Bool := (t.distance? n).isSome

def reachedCount (t : PathTree α) : Nat := t.cost.toList.countP PathCost.isFinite

/-- How the path enters a node other than the source. -/
def entry? (t : PathTree α) (n : NodeId) : Option Entry := (t.entry[n.index]?).join

/-- The tree with a path to a node, found by way of an edge. -/
def reach (t : PathTree α) (n : NodeId) (cost : α) (via : Entry) : PathTree α :=
  { t with
    cost := t.cost.setIfInBounds n.index cost
    entry := t.entry.setIfInBounds n.index (some via) }

/-- The edges on the way from the source to a node, in front of those of `tail`. A path has fewer
edges than the tree has nodes. -/
def climb (t : PathTree α) : Nat → NodeId → List EdgeId → List EdgeId
  | 0, _, tail => tail
  | fuel + 1, n, tail =>
    if n = t.source then tail
    else match t.entry? n with
      | some e => t.climb fuel e.node (e.edge :: tail)
      | none => tail

/-- Replaces what a buffer holds by the edges from the source to a node in the order of travel. The
buffer is cleared first, so that it is left empty where there is no path. -/
def pathInto (t : PathTree α) (n : NodeId) : ExceptT NetworkFault (StateM (List EdgeId)) Unit := do
  set ([] : List EdgeId)
  if t.nodeCount ≤ n.index then
    throw (.noSuchNode n t.nodeCount)
  if !t.isReached n then
    throw (.noPath t.source n)
  modify (t.climb t.nodeCount n)

/-- The edges from the source to a node in the order of travel. -/
def path (t : PathTree α) (n : NodeId) : Except NetworkFault (List EdgeId) :=
  let (outcome, edges) := (t.pathInto n).run []
  outcome.map fun () => edges

def route (t : PathTree α) (n : NodeId) : Except NetworkFault (Route α) :=
  (t.path n).map fun edges => ⟨edges, t.costAt n⟩

end PathTree

end RoadFlow
