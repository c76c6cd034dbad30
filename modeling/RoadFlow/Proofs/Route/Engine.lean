import RoadFlow.Proofs.Route.Counts
import RoadFlow.Proofs.Route.Dijkstra
import RoadFlow.Route.Policy

/-!
# Engines

The engine of a policy under any costs. Either engine gives a rooted tree from each node, and one
that is bounded when sums never go down (`Policy.search_ok`).
-/

namespace RoadFlow

variable {α : Type} [PathCost α] {net : Network} {source target : NodeId}

namespace Policy

/-- The search of a policy when edges have the given lengths. -/
def engineWith (lengths : Network → EdgeId → α) : Policy → Engine α
  | length => .leastCost lengths
  | hops => .fewestEdges

/-- What an edge costs under a policy. -/
def costWith {κ : Type} [One κ] (lengths : EdgeId → κ) : Policy → EdgeId → κ
  | length => lengths
  | hops => fun _ => 1

theorem engine_eq (policy : Policy) : policy.engine = policy.engineWith Network.lengthOf := by
  cases policy <;> rfl

/-- What the search of a policy relies on: an order of the sums of lengths, or counts of edges that
stay finite. -/
def Lawful (net : Network) (lengths : EdgeId → α) (source : NodeId) : Policy → Prop
  | length => CostOrder net lengths source
  | hops => CostOrder.Additive net (fun _ => (1 : α)) source

/-- Rounded lengths and counts are what searches rely on. -/
theorem lawful_lengths (sound : net.Sound) (source : NodeId) (policy : Policy) :
    policy.Lawful net net.lengthOf source := by
  cases policy with
  | length => exact costOrder_lengths sound source
  | hops => exact additive_counts net source

theorem search_ok {lengths : Network → EdgeId → α} {policy : Policy} (sound : net.Sound)
    (lawful : policy.Lawful net (lengths net) source) (home : net.hasNode source = true) :
    ∃ t, (policy.engineWith lengths).search net source = .ok t ∧ t.source = source ∧
      t.Rooted net (policy.costWith (lengths net)) ∧
      (CostOrder.Additive net (policy.costWith (lengths net)) source →
        t.Bounded net (policy.costWith (lengths net))) := by
  cases policy with
  | length =>
    obtain ⟨s, order, found, inv, tight⟩ :=
      Dijkstra.searchWith_ok (Heap.queue_lawful lawful.ranks) sound lawful home
    exact ⟨s.tree, found, inv.root, inv.rooted lawful, fun additive =>
      (tight additive).bounded inv sound additive⟩
  | hops =>
    obtain ⟨s, level, found, inv, followed⟩ := BreadthFirst.search_ok sound lawful home
    exact ⟨s.tree, found, inv.root, inv.rooted sound lawful, fun _ =>
      inv.bounded sound lawful followed⟩

end Policy

theorem Engine.route_eq {engine : Engine α} {t : PathTree α} (inside : net.hasNode target = true)
    (found : engine.search net source = .ok t) :
    engine.route net source target = t.route target := by
  rw [Engine.route, Network.checkNode, if_pos inside, found]
  rfl

end RoadFlow
