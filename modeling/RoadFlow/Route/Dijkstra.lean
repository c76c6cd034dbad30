import RoadFlow.Route.Frontier
import RoadFlow.Route.Tree

/-!
# Least-cost searches

Dijkstra's algorithm: the least entry of the frontier is settled and its edges are relaxed in
ascending order. A node that is reached again at the cost it has, before it is settled, is entered
by the lower edge. Loops are never relaxed.
-/

namespace RoadFlow.Dijkstra

variable {α σ : Type} [PathCost α]

structure State (α σ : Type) where
  tree : PathTree α
  settled : Array Bool
  frontier : σ

def State.isSettled (s : State α σ) (n : NodeId) : Bool := s.settled.getD n.index false

/-- Relaxes an edge that leaves a settled node. -/
def relax (queue : Queue (Reached α) σ) (net : Network) (measure : EdgeId → α) (here : Reached α)
    (s : State α σ) (e : EdgeId) : State α σ :=
  match net.edge? e with
  | none => s
  | some edge =>
    let next := edge.target
    if net.isLoop e || s.isSettled next then s
    else
      let cost := here.cost + measure e
      let known := s.tree.costAt next
      let entry : Entry := ⟨here.node, e⟩
      if PathCost.lt cost known then
        { s with
          tree := s.tree.reach next cost entry
          frontier := queue.push ⟨cost, next⟩ s.frontier }
      else if PathCost.same cost known
          && ((s.tree.entry? next).map (·.edge)).all (fun held => e.precedes held) then
        { s with tree := s.tree.reach next known entry }
      else s

/-- Settles an entry of the frontier and relaxes the edges that leave its node. An entry whose node
is settled already is stale. -/
def settle (queue : Queue (Reached α) σ) (net : Network) (measure : EdgeId → α) (here : Reached α)
    (s : State α σ) : State α σ :=
  if s.isSettled here.node then s
  else
    (net.edgesFrom here.node).foldl (relax queue net measure here)
      { s with settled := s.settled.setIfInBounds here.node.index true }

/-- Settles the least entry until the frontier is empty. -/
def run (queue : Queue (Reached α) σ) (net : Network) (measure : EdgeId → α) :
    Nat → State α σ → State α σ
  | 0, s => s
  | fuel + 1, s =>
    match queue.popLeast? s.frontier with
    | none => s
    | some (here, rest) =>
      run queue net measure fuel (settle queue net measure here { s with frontier := rest })

/-- The state before anything is settled. -/
def start (queue : Queue (Reached α) σ) (net : Network) (source : NodeId) : State α σ :=
  { tree := PathTree.start source net.nodeCount
    settled := Array.replicate net.nodeCount false
    frontier := queue.push ⟨0, source⟩ queue.empty }

/-- The search with any queue. Every edge is relaxed at most once, so the frontier is entered at
most once per edge and once by the source. -/
def searchWith (queue : Queue (Reached α) σ) (net : Network) (measure : EdgeId → α)
    (source : NodeId) : Except NetworkFault (PathTree α) := do
  net.checkNode source
  return (run queue net measure (net.edgeCount + 1) (start queue net source)).tree

/-- The tree of least-cost paths from a node, edges costing what `measure` says. -/
def search (net : Network) (measure : EdgeId → α) (source : NodeId) :
    Except NetworkFault (PathTree α) :=
  searchWith (Heap.queue Reached.before) net measure source

end RoadFlow.Dijkstra
