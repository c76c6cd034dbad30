import RoadFlow.Route.BreadthFirst
import RoadFlow.Route.Dijkstra

/-!
# Cost policies

What a route costs: the sum of its lengths or the number of its edges. Each policy has its search.
-/

namespace RoadFlow

inductive Policy where
  | length
  | hops
  deriving DecidableEq

namespace Policy

def name : Policy → String
  | length => "length"
  | hops => "hops"

def ofName? (name : String) : Option Policy := [length, hops].find? fun p => p.name == name

/-- The number that stands for a policy in a file. -/
def tag : Policy → Nat
  | length => 0
  | hops => 1

def standard : Policy := length

end Policy

/-- A search from one node, and the policy that it follows. -/
structure Engine (α : Type) where
  policy : Policy
  search : Network → NodeId → Except NetworkFault (PathTree α)

namespace Engine

variable {α : Type} [PathCost α]

/-- Least sums of a measure of the edges. -/
def leastCost (measure : Network → EdgeId → α) : Engine α :=
  ⟨.length, fun net source => Dijkstra.search net (measure net) source⟩

/-- Fewest edges. -/
def fewestEdges : Engine α := ⟨.hops, BreadthFirst.search⟩

/-- The route between two nodes. -/
def route (engine : Engine α) (net : Network) (source target : NodeId) :
    Except NetworkFault (Route α) := do
  net.checkNode target
  let tree ← engine.search net source
  tree.route target

end Engine

/-- The length of an edge. -/
def Network.lengthOf (net : Network) (e : EdgeId) : Float :=
  ((net.edge? e).map (·.length)).getD 0

/-- The search of a policy. -/
def Policy.engine : Policy → Engine Float
  | .length => .leastCost Network.lengthOf
  | .hops => .fewestEdges

end RoadFlow
