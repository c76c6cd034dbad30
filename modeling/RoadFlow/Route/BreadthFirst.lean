import RoadFlow.Route.Tree

/-!
# Fewest-edge searches

Breadth-first search: nodes are visited in the order in which they were reached, and each is entered
by the first edge that reaches it.
-/

namespace RoadFlow.BreadthFirst

variable {α : Type} [PathCost α]

/-- The tree so far, and the nodes reached, in order. -/
structure State (α : Type) where
  tree : PathTree α
  reached : Array NodeId

/-- Follows an edge from a node that is `hops - 1` edges away. -/
def follow (net : Network) (here : NodeId) (hops : α) (s : State α) (e : EdgeId) : State α :=
  match net.edge? e with
  | none => s
  | some edge =>
    if PathCost.isFinite (s.tree.costAt edge.target) then s
    else
      { tree := s.tree.reach edge.target hops ⟨here, e⟩
        reached := s.reached.push edge.target }

/-- Follows all edges that leave a node. -/
def visit (net : Network) (here : NodeId) (s : State α) : State α :=
  (net.edgesFrom here).foldl (follow net here (s.tree.costAt here + 1)) s

/-- Visits the nodes reached, from the given one on. -/
def run (net : Network) : Nat → Nat → State α → State α
  | 0, _, s => s
  | fuel + 1, i, s =>
    match s.reached[i]? with
    | none => s
    | some here => run net fuel (i + 1) (visit net here s)

/-- The tree of paths with the fewest edges from a node. Every node is reached at most once. -/
def search (net : Network) (source : NodeId) : Except NetworkFault (PathTree α) := do
  net.checkNode source
  return (run net net.nodeCount 0 ⟨PathTree.start source net.nodeCount, #[source]⟩).tree

end RoadFlow.BreadthFirst
