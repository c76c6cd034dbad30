import Mathlib.Data.Set.Card
import RoadFlow.Proofs.Route.BreadthFirst
import RoadFlow.Proofs.Route.Dijkstra

/-!
# Shortest paths

Both searches give trees of shortest paths (`searches_shortest`): Dijkstra's algorithm under any
measure of the edges whose sums stay finite and never go down, and breadth-first search when every
edge costs one.
-/

namespace RoadFlow

open PathCost

variable {α : Type} [PathCost α] {t : PathTree α} {net : Network} {measure : EdgeId → α}
  {source : NodeId}

namespace PathTree

/-- The tree knows the least cost of all walks from a node, where there are any. -/
structure Shortest (t : PathTree α) (net : Network) (measure : EdgeId → α) (source : NodeId) :
    Prop where
  distance : ∀ v d, t.distance? v = some d ↔ net.LeastCost measure source v d
  noDistance : ∀ v, t.distance? v = none ↔ ∀ edges, ¬ net.Walk source v edges
  count : t.reachedCount = {v | ∃ edges, net.Walk source v edges}.ncard

theorem reachedCount_eq_ncard (t : PathTree α) :
    t.reachedCount = {v | t.isReached v = true}.ncard := by
  have costs : t.cost.toList = (List.range t.nodeCount).map fun i => t.costAt ⟨i⟩ := by
    apply List.ext_getElem
    · simp [nodeCount]
    · intro i h _
      simp only [Array.length_toList] at h
      simp [costAt, h]
  have reached : {v | t.isReached v = true} =
      (((List.range t.nodeCount).filter fun i => isFinite (t.costAt ⟨i⟩)).map
        (Id.mk : Nat → NodeId)).toFinset := by
    ext v
    obtain ⟨i⟩ := v
    simp [isReached_iff]
  rw [reached, Set.ncard_coe_finset, List.toFinset_card_of_nodup, List.length_map,
    ← List.countP_eq_length_filter, reachedCount, costs, List.countP_map]
  · rfl
  · exact (List.nodup_range.filter _).map fun _ _ h => Id.mk.inj h

theorem Rooted.shortest (rooted : t.Rooted net measure) (bounded : t.Bounded net measure)
    (law : CostOrder net measure t.source) : t.Shortest net measure t.source := by
  have reached_iff (v : NodeId) :
      t.isReached v = true ↔ ∃ edges, net.Walk t.source v edges := by
    constructor
    · intro h
      obtain ⟨edges, walk, -⟩ := rooted.attains h
      exact ⟨edges, walk⟩
    · rintro ⟨edges, walk⟩
      exact (bounded walk).1
  have least {v : NodeId} (h : t.isReached v = true) :
      net.LeastCost measure t.source v (t.costAt v) :=
    ⟨rooted.attains h, fun edges walk => (bounded walk).2⟩
  refine ⟨fun v d => ⟨fun h => ?_, fun h => ?_⟩, fun v => ?_, ?_⟩
  · obtain ⟨small, rfl, finite⟩ := distance?_eq_some.mp h
    exact least (isReached_iff.mpr ⟨small, finite⟩)
  · obtain ⟨edges, walk, -⟩ := h.1
    have reached := (reached_iff v).mpr ⟨edges, walk⟩
    obtain ⟨small, finite⟩ := isReached_iff.mp reached
    have same := law.leastCost_unique (least reached) h
    rw [distance?_eq_some, ← same]
    exact ⟨small, rfl, finite⟩
  · rw [← not_exists, ← reached_iff, isReached, Option.not_isSome_iff_eq_none]
  · rw [reachedCount_eq_ncard]
    simp only [reached_iff]

end PathTree

/-- Dijkstra's algorithm finds the least sums of a measure, and breadth-first search the least
numbers of edges. -/
theorem searches_shortest (built : net.Built) (home : net.hasNode source = true)
    (sums : CostOrder.Additive net measure source)
    (counts : CostOrder.Additive net (fun _ => (1 : α)) source) :
    ∃ byLength byHops : PathTree α,
      Dijkstra.search net measure source = .ok byLength ∧
      byLength.Shortest net measure source ∧
      BreadthFirst.search net source = .ok byHops ∧
      byHops.Shortest net (fun _ => 1) source := by
  have lawful := Heap.queue_lawful sums.toCostOrder.ranks
  obtain ⟨s, order, found, inv, tight⟩ :=
    Dijkstra.searchWith_ok lawful built.sound sums.toCostOrder home
  obtain ⟨s', level, found', inv', followed⟩ := BreadthFirst.search_ok built.sound counts home
  refine ⟨s.tree, s'.tree, found, ?_, found', ?_⟩
  · have law := sums.toCostOrder
    have bounded := (tight sums).bounded inv built.sound sums
    have rooted := inv.rooted law
    rw [← inv.root] at law ⊢
    exact rooted.shortest bounded law
  · have law := counts.toCostOrder
    have bounded := inv'.bounded built.sound counts followed
    have rooted := inv'.rooted built.sound counts
    rw [← inv'.root] at law ⊢
    exact rooted.shortest bounded law

theorem searches_shortest_sample :
    ∃ byLength byHops : PathTree (WithTop ℕ),
      Dijkstra.search Network.sample (fun e => ((1 - e.index / 2 : ℕ) : WithTop ℕ)) ⟨0⟩ =
        .ok byLength ∧
      byLength.Shortest Network.sample (fun e => ((1 - e.index / 2 : ℕ) : WithTop ℕ)) ⟨0⟩ ∧
      BreadthFirst.search Network.sample ⟨0⟩ = .ok byHops ∧
      byHops.Shortest Network.sample (fun _ => 1) ⟨0⟩ :=
  searches_shortest Network.sample_built (by decide)
    (additive_exact ⟨0⟩ fun _ => Nat.zero_le _) (additive_one Network.sample ⟨0⟩)

end RoadFlow
