import RoadFlow.Proofs.Route.Dijkstra
import RoadFlow.Proofs.Route.Rounding

/-!
# Sums beyond 64 bits

Each length is finite, but a sum of lengths need not be. A least-cost search over rounded lengths
gives a node a distance exactly if some walk to it has a finite sum, and enters it exactly if some
walk to it has a finite sum but for its last edge (`search_within_range`). So a node may be entered
and have no distance (`entered_without_distance`).
-/

namespace RoadFlow

open PathCost

variable {α σ : Type} [PathCost α] {net : Network} {measure : EdgeId → α} {source v : NodeId}

namespace Dijkstra

variable {s : State α σ} {order : List NodeId}

/-- The distances held are the least sums of walks that are finite. -/
theorem Tight.distance_iff (tight : Tight net measure s order 0 [])
    (inv : Inv net measure source s order 0) (sound : net.Sound)
    (law : CostOrder.Growing net measure source) {d : α} :
    s.tree.distance? v = some d ↔
      net.LeastCost measure source v d ∧ isFinite d = true := by
  have least {v : NodeId} (finite : isFinite (s.tree.costAt v) = true) :
      net.LeastCost measure source v (s.tree.costAt v) := by
    have attains := inv.attains law.toCostOrder finite
    refine ⟨attains, fun edges walk => ?_⟩
    have sum : net.Attains measure source v (walkCost measure edges) := ⟨edges, walk, rfl⟩
    cases finite' : isFinite (walkCost measure edges) with
    | true => exact (tight.bound inv law walk finite').2
    | false =>
      exact law.atMost_trans attains.met (net.met_mark measure source) sum.met
        (law.atMost_mark attains.met) finite'
  rw [PathTree.distance?_eq_some]
  constructor
  · rintro ⟨-, rfl, finite⟩
    exact ⟨least finite, finite⟩
  · rintro ⟨found, finite⟩
    obtain ⟨⟨edges, walk, rfl⟩, -⟩ := id found
    have reached := (tight.bound inv law walk finite).1
    have same := law.leastCost_unique (least reached) found
    refine ⟨?_, same, finite⟩
    rw [inv.nodes]
    exact walk.inside sound inv.home

theorem Tight.reached_iff_finite (tight : Tight net measure s order 0 [])
    (inv : Inv net measure source s order 0) (sound : net.Sound)
    (law : CostOrder.Growing net measure source) :
    s.tree.isReached v = true ↔
      ∃ edges, net.Walk source v edges ∧ isFinite (walkCost measure edges) = true := by
  rw [PathTree.isReached_iff, inv.nodes]
  constructor
  · rintro ⟨-, finite⟩
    obtain ⟨edges, walk, sum⟩ := inv.attains law.toCostOrder finite
    rw [← sum] at finite
    exact ⟨edges, walk, finite⟩
  · rintro ⟨edges, walk, finite⟩
    exact ⟨walk.inside sound inv.home, (tight.bound inv law walk finite).1⟩

/-- The nodes entered are those at the end of an edge from a node with a distance. -/
theorem Tight.entered_iff (tight : Tight net measure s order 0 [])
    (inv : Inv net measure source s order 0) (law : CostOrder.Growing net measure source)
    (away : v ≠ source) :
    (s.tree.entry? v).isSome = true ↔
      ∃ edges e, net.Walk source v (edges ++ [e]) ∧ isFinite (walkCost measure edges) = true := by
  rw [Option.isSome_iff_exists]
  constructor
  · rintro ⟨via, held⟩
    obtain ⟨settled, edge, found, leaves, target⟩ := inv.entered held
    have finite := inv.reached settled
    obtain ⟨edges, walk, sum⟩ := inv.attains law.toCostOrder finite
    rw [← sum] at finite
    exact ⟨edges, via.edge, Network.walk_concat.mpr ⟨edge, leaves ▸ walk, found, target⟩, finite⟩
  · rintro ⟨edges, e, walk, finite⟩
    obtain ⟨edge, before, found, rfl⟩ := Network.walk_concat.mp walk
    have settled := inv.settled_of_finite (tight.bound inv law before finite).1
    rw [← inv.root] at away
    exact Option.isSome_iff_exists.mp (tight.held found settled List.not_mem_nil away)

end Dijkstra

/-- The state in which a search over rounded lengths ends. -/
theorem search_lengths (sound : net.Sound) (home : net.hasNode source = true) :
    ∃ (s : Dijkstra.State Float (Heap (Reached Float))) (order : List NodeId),
      Policy.length.engine.search net source = .ok s.tree ∧
      Dijkstra.Inv net net.lengthOf source s order 0 ∧
      Dijkstra.Tight net net.lengthOf s order 0 [] := by
  have law := growing_lengths sound source
  obtain ⟨s, order, found, inv, tight⟩ := Dijkstra.searchWith_settled
    (Heap.queue_lawful law.toCostOrder.ranks) sound law.toCostOrder home
  exact ⟨s, order, found, inv, tight law⟩

/-- What a tree holds when sums may grow beyond the mark. The distances are the least sums below it,
and a node is entered if some walk to it has such a sum but for its last edge. -/
structure PathTree.WithinRange (t : PathTree α) (net : Network) (measure : EdgeId → α)
    (source : NodeId) : Prop where
  distance : ∀ v d, t.distance? v = some d ↔
    net.LeastCost measure source v d ∧ isFinite d = true
  reached : ∀ v, t.isReached v = true ↔
    ∃ edges, net.Walk source v edges ∧ isFinite (walkCost measure edges) = true
  entered : ∀ v, v ≠ source → ((t.entry? v).isSome = true ↔
    ∃ edges e, net.Walk source v (edges ++ [e]) ∧ isFinite (walkCost measure edges) = true)
  held : ∀ v, v ≠ source → t.isReached v = true → (t.entry? v).isSome = true

/-- Under rounded lengths, a search finds all that has a finite sum. -/
theorem search_within_range (built : net.Built) (home : net.hasNode source = true) :
    ∃ t, Policy.length.engine.search net source = .ok t ∧
      t.WithinRange net net.lengthOf source := by
  have law := growing_lengths built.sound source
  obtain ⟨s, order, found, inv, tight⟩ := search_lengths built.sound home
  refine ⟨s.tree, found, ?_, ?_, ?_, ?_⟩
  · intro v d
    exact tight.distance_iff inv built.sound law
  · intro v
    exact tight.reached_iff_finite inv built.sound law
  · intro v away
    exact tight.entered_iff inv law away
  · intro v away reached
    rw [← inv.root] at away
    exact inv.held (PathTree.isReached_iff.mp reached).2 away

theorem search_within_range_sample :
    ∃ t, Policy.length.engine.search Network.sample ⟨0⟩ = .ok t ∧
      t.WithinRange Network.sample Network.sample.lengthOf ⟨0⟩ :=
  search_within_range Network.sample_built (by decide)

/-- Three nodes in a row, the last one further off than any number of 64 bits. -/
def Network.far : Network :=
  (Builder.filled
    [⟨"a", ⟨0, 0⟩⟩, ⟨"b", ⟨1, 0⟩⟩, ⟨"c", ⟨2, 0⟩⟩]
    [⟨"ab", ⟨0⟩, ⟨1⟩, Float.ofBits 0x7fe1ccf385ebc8a0⟩,
      ⟨"bc", ⟨1⟩, ⟨2⟩, Float.ofBits 0x7fe1ccf385ebc8a0⟩]).build "far"

namespace Network

theorem far_built : far.Built :=
  built_filled ⟨by decide, by decide, by decide, by decide, by decide⟩ "far"

theorem far_edge {e : EdgeId} {edge : Edge} (found : far.edge? e = some edge) :
    e = ⟨0⟩ ∧ edge.source = ⟨0⟩ ∧ edge.target = ⟨1⟩ ∨
      e = ⟨1⟩ ∧ edge.source = ⟨1⟩ ∧ edge.target = ⟨2⟩ := by
  rcases e with ⟨_ | _ | i⟩
  · cases found
    exact .inl ⟨rfl, rfl, rfl⟩
  · cases found
    exact .inr ⟨rfl, rfl, rfl⟩
  · cases found

/-- The walks of a row of nodes that begin at its front. -/
theorem far_walk {edges : List EdgeId} (walk : far.Walk ⟨0⟩ v edges) :
    v = ⟨0⟩ ∧ edges = [] ∨ v = ⟨1⟩ ∧ edges = [⟨0⟩] ∨ v = ⟨2⟩ ∧ edges = [⟨0⟩, ⟨1⟩] := by
  induction walk with
  | stay => exact .inl ⟨rfl, rfl⟩
  | go _ found ih =>
    rcases far_edge found with ⟨rfl, source, target⟩ | ⟨rfl, source, target⟩
    all_goals
      rw [source] at ih
      rw [target]
    · rcases ih with ⟨-, rfl⟩ | ⟨away, -⟩ | ⟨away, -⟩
      · exact .inr (.inl ⟨rfl, rfl⟩)
      · cases away
      · cases away
    · rcases ih with ⟨away, -⟩ | ⟨-, rfl⟩ | ⟨away, -⟩
      · cases away
      · exact .inr (.inr ⟨rfl, rfl⟩)
      · cases away

end Network

/-- A walk leads to the last node, which is entered along it and has no distance. -/
theorem entered_without_distance :
    Network.far.Built ∧ Network.far.Walk ⟨0⟩ ⟨2⟩ [⟨0⟩, ⟨1⟩] ∧
      ∃ t, Policy.length.engine.search Network.far ⟨0⟩ = .ok t ∧
        t.distance? ⟨2⟩ = none ∧ (t.entry? ⟨2⟩).isSome = true := by
  have home : Network.far.hasNode ⟨0⟩ = true := by decide
  have first : Network.far.Walk ⟨0⟩ ⟨1⟩ ([] ++ [⟨0⟩]) :=
    Network.walk_concat.mpr ⟨_, .stay, rfl, rfl⟩
  have both : Network.far.Walk ⟨0⟩ ⟨2⟩ ([⟨0⟩] ++ [⟨1⟩]) :=
    Network.walk_concat.mpr ⟨_, first, rfl, rfl⟩
  have sound := Network.far_built.sound
  have law := growing_lengths sound ⟨0⟩
  obtain ⟨s, order, found, inv, tight⟩ := search_lengths sound home
  refine ⟨Network.far_built, both, s.tree, found, ?_, ?_⟩
  · rw [← Option.not_isSome_iff_eq_none]
    intro reached
    obtain ⟨edges, walk, finite⟩ := (tight.reached_iff_finite inv sound law).mp reached
    rcases Network.far_walk walk with ⟨away, -⟩ | ⟨away, -⟩ | ⟨-, rfl⟩
    · cases away
    · cases away
    · revert finite
      decide
  · apply (tight.entered_iff inv law (by decide)).mpr
    exact ⟨[⟨0⟩], ⟨1⟩, both, by decide⟩

end RoadFlow
