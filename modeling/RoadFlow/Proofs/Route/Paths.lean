import RoadFlow.Proofs.Route.Engine
import RoadFlow.Scalar

/-!
# Paths read off a tree

The walk back along the entries of a tree ends at its source, since each entry leads to a node of
lower rank. So the path to a node stops nowhere twice, and its edges add up, in the order of travel,
to the cost that the tree holds, whatever addition is (`paths_reconstructed`).
-/

namespace RoadFlow

open PathCost

variable {α : Type} [PathCost α] {net : Network} {source v : NodeId} {edges : List EdgeId}
  {measure : EdgeId → α}

/-- The nodes on the way along some edges, the first one included. -/
def Network.stops (net : Network) (source : NodeId) (edges : List EdgeId) : List NodeId :=
  source :: edges.filterMap fun e => (net.edge? e).map (·.target)

theorem Network.stops_concat {e : EdgeId} {edge : Edge} (found : net.edge? e = some edge)
    (source : NodeId) (edges : List EdgeId) :
    net.stops source (edges ++ [e]) = net.stops source edges ++ [edge.target] := by
  simp [stops, found]

namespace PathTree

variable {t : PathTree α} {rank : NodeId → Nat}

/-! ## Ranks along a path -/

theorem Ranked.stops_le (ranked : t.Ranked net measure rank) (branch : t.Branch v edges)
    (h : t.isReached v = true) : ∀ n ∈ net.stops t.source edges, rank n ≤ rank v := by
  induction branch with
  | root =>
    intro n hn
    rw [List.mem_singleton.mp hn]
  | grow away held _ ih =>
    obtain ⟨parent, lower⟩ := ranked.parent_of_entry h away held
    obtain ⟨edge, found, -, target⟩ := parent.edge
    rw [Network.stops_concat found, target]
    intro n hn
    rcases List.mem_append.mp hn with earlier | last
    · exact (ih parent.reached n earlier).trans lower.le
    · rw [List.mem_singleton.mp last]

/-- A branch stops nowhere twice. -/
theorem Ranked.stops_nodup (ranked : t.Ranked net measure rank) (branch : t.Branch v edges)
    (h : t.isReached v = true) : (net.stops t.source edges).Nodup := by
  induction branch with
  | root => exact List.nodup_singleton _
  | grow away held branch ih =>
    obtain ⟨parent, lower⟩ := ranked.parent_of_entry h away held
    obtain ⟨edge, found, -, target⟩ := parent.edge
    rw [Network.stops_concat found, target]
    refine List.nodup_append.mpr ⟨ih parent.reached, by simp, ?_⟩
    rintro n earlier m last rfl
    have low := ranked.stops_le branch parent.reached n earlier
    rw [List.mem_singleton.mp last] at low
    omega

theorem Ranked.noLoop (ranked : t.Ranked net measure rank) (branch : t.Branch v edges)
    (h : t.isReached v = true) : ∀ e ∈ edges, net.isLoop e = false := by
  induction branch with
  | root => simp
  | grow away held _ ih =>
    obtain ⟨parent, lower⟩ := ranked.parent_of_entry h away held
    obtain ⟨edge, found, leaves, target⟩ := parent.edge
    intro e he
    rcases List.mem_append.mp he with earlier | last
    · exact ih parent.reached e earlier
    · have apart : edge.source ≠ edge.target := by
        rw [leaves, target]
        intro same
        rw [same] at lower
        exact Nat.lt_irrefl _ lower
      rw [List.mem_singleton.mp last, Network.isLoop, found]
      simpa using apart

/-! ## Reconstruction -/

/-- A tree leads to a node at a cost along some edges: following the entries back from the node ends
at the source, and gives the edges of a walk that stops nowhere twice. -/
structure Leads (t : PathTree α) (net : Network) (measure : EdgeId → α) (v : NodeId) (cost : α)
    (edges : List EdgeId) : Prop where
  path : t.path v = .ok edges
  into : ∀ buffer, (t.pathInto v).run buffer = (.ok (), edges)
  branch : t.Branch v edges
  walk : net.Walk t.source v edges
  simple : (net.stops t.source edges).Nodup
  noLoop : ∀ e ∈ edges, net.isLoop e = false
  short : edges.length < net.nodeCount
  sum : walkCost measure edges = cost
  last : ∀ via, t.entry? v = some via →
    ∃ before, t.path via.node = .ok before ∧ edges = before ++ [via.edge]

/-- A tree leads to each node that has a distance, and refuses all others with an empty buffer. -/
structure Reconstructs (t : PathTree α) (net : Network) (measure : EdgeId → α) (source : NodeId) :
    Prop where
  root : t.source = source
  leads : ∀ v cost, t.distance? v = some cost → ∃ edges, t.Leads net measure v cost edges
  noPath : ∀ v, v.index < net.nodeCount → t.distance? v = none →
    t.path v = .error (.noPath source v) ∧
      ∀ buffer, (t.pathInto v).run buffer = (.error (.noPath source v), [])
  noNode : ∀ v, net.nodeCount ≤ v.index →
    t.path v = .error (.noSuchNode v net.nodeCount) ∧
      ∀ buffer, (t.pathInto v).run buffer = (.error (.noSuchNode v net.nodeCount), [])

theorem Rooted.leads (rooted : t.Rooted net measure) (bare : t.entry? t.source = none) {cost : α}
    (h : t.distance? v = some cost) : ∃ edges, t.Leads net measure v cost edges := by
  obtain ⟨rank, ranked⟩ := rooted.ranked
  have reached : t.isReached v = true := by
    rw [isReached, h]
    rfl
  obtain ⟨edges, branch, into⟩ := rooted.pathInto_ok reached
  obtain ⟨walk, sum⟩ := branch.walk rooted reached
  have path : t.path v = .ok edges := by
    rw [path, into]
    rfl
  refine ⟨edges, path, into, branch, walk, ranked.stops_nodup branch reached,
    ranked.noLoop branch reached, ?_, ?_, ?_⟩
  · obtain ⟨other, branch', short⟩ := ranked.branch reached
    rw [branch.unique branch', ← rooted.nodes]
    exact short.trans_lt (ranked.small reached)
  · rw [sum]
    exact (distance?_eq_some.mp h).2.1
  · intro via held
    have away : v ≠ t.source := by
      rintro rfl
      rw [bare] at held
      cases held
    obtain ⟨parent, -⟩ := ranked.parent_of_entry reached away held
    obtain ⟨before, path', branch'⟩ := rooted.path_ok parent.reached
    exact ⟨before, path', branch.unique (.grow away held branch')⟩

theorem Rooted.reconstructs (rooted : t.Rooted net measure) (bare : t.entry? t.source = none) :
    t.Reconstructs net measure t.source := by
  refine ⟨rfl, fun v cost h => rooted.leads bare h, ?_, ?_⟩
  · intro v inside h
    rw [← rooted.nodes] at inside
    have cut : ¬ t.isReached v = true := by simp [isReached, h]
    exact ⟨path_of_not_reached inside cut, pathInto_of_not_reached inside cut⟩
  · intro v outside
    rw [← rooted.nodes] at outside ⊢
    exact ⟨path_of_outside outside, pathInto_of_outside outside⟩

end PathTree

namespace Policy

/-- What the paths of a policy rely on: sums of lengths that are ordered, or counts of edges that
stay below the mark. Nothing is said of how costs are added. -/
def Ordered (net : Network) (lengths : EdgeId → α) (source : NodeId) : Policy → Prop
  | length => CostOrder net lengths source
  | hops => Counted α net source

theorem ordered_lengths (sound : net.Sound) (source : NodeId) (policy : Policy) :
    policy.Ordered net net.lengthOf source := by
  cases policy with
  | length => exact costOrder_lengths sound source
  | hops => exact (additive_counts net source).counted

theorem search_reconstructs {lengths : Network → EdgeId → α} {policy : Policy}
    (sound : net.Sound) (ordered : policy.Ordered net (lengths net) source)
    (home : net.hasNode source = true) :
    ∃ t, (policy.engineWith lengths).search net source = .ok t ∧
      t.Reconstructs net (policy.costWith (lengths net)) source := by
  cases policy with
  | length =>
    obtain ⟨s, order, found, inv, -⟩ :=
      Dijkstra.searchWith_settled (Heap.queue_lawful ordered.ranks) sound ordered home
    refine ⟨s.tree, found, ?_⟩
    rw [← inv.root]
    apply (inv.rooted ordered).reconstructs
    rw [inv.root]
    exact inv.bare
  | hops =>
    obtain ⟨s, level, found, inv, -⟩ := BreadthFirst.search_visited sound ordered home
    refine ⟨s.tree, found, ?_⟩
    rw [← inv.root]
    apply (inv.rooted_of_counted sound ordered).reconstructs
    rw [inv.root]
    exact inv.bare

end Policy

/-- The tree of either engine reconstructs its paths, with rounded lengths and with any other costs
that are ordered. -/
theorem paths_reconstructed (built : net.Built) (home : net.hasNode source = true)
    (policy : Policy) :
    (∃ t, policy.engine.search net source = .ok t ∧
      t.Reconstructs net (policy.costWith net.lengthOf) source) ∧
    ∀ {κ : Type} [PathCost κ] (lengths : Network → EdgeId → κ),
      policy.Ordered net (lengths net) source →
        ∃ t, (policy.engineWith lengths).search net source = .ok t ∧
          t.Reconstructs net (policy.costWith (lengths net)) source := by
  constructor
  · rw [policy.engine_eq]
    exact Policy.search_reconstructs built.sound (Policy.ordered_lengths built.sound source policy)
      home
  · intro κ _ lengths ordered
    exact Policy.search_reconstructs built.sound ordered home

theorem paths_reconstructed_sample :
    (∃ t, Policy.length.engine.search Network.sample ⟨0⟩ = .ok t ∧
      t.Reconstructs Network.sample Network.sample.lengthOf ⟨0⟩) ∧
    ∃ t : PathTree (WithTop ℕ), Dijkstra.search Network.sample
        (fun e => ((1 - e.index / 2 : ℕ) : WithTop ℕ)) ⟨0⟩ = .ok t ∧
      t.Reconstructs Network.sample (fun e => ((1 - e.index / 2 : ℕ) : WithTop ℕ)) ⟨0⟩ := by
  have home : Network.sample.hasNode ⟨0⟩ = true := by decide
  obtain ⟨rounded, others⟩ := paths_reconstructed Network.sample_built home .length
  exact ⟨rounded, others (fun _ e => ((1 - e.index / 2 : ℕ) : WithTop ℕ)) (costOrder_exact ..)⟩

end RoadFlow
