import RoadFlow.Proofs.Route.Counts
import RoadFlow.Proofs.Route.Overflow

/-!
# Ties between paths

Where several paths to a node are equally good, which of them a tree holds. A least-cost search
enters a node by the lowest of the tight edges from nodes that it settled before
(`searchWith_ties`). When all lengths are positive these are all tight edges, so the network alone
decides the tree, and no queue can change it (`Canonical.unique`, `least_cost_ties`). A fewest-edge
search finds the first of the shortest paths in the order of a dictionary (`fewest_edges_ties`).
-/

namespace RoadFlow

open PathCost

variable {α σ : Type} [PathCost α] {net : Network} {measure : EdgeId → α} {source v : NodeId}

namespace PathTree

variable {t other : PathTree α} {via : Entry}

/-- The entry is an edge between two nodes, along which the distance of the one gives that of the
other. -/
def TightInto (t : PathTree α) (net : Network) (measure : EdgeId → α) (v : NodeId) (via : Entry) :
    Prop :=
  ∃ edge, net.edge? via.edge = some edge ∧ edge.source = via.node ∧ edge.target = v ∧
    via.node ≠ v ∧
    ∃ d, t.distance? via.node = some d ∧ t.distance? v = some (d + measure via.edge)

/-- Of some entries, the one with the lowest edge. -/
def Lowest (among : Entry → Prop) (via : Entry) : Prop :=
  among via ∧ ∀ other, among other → via.edge.index ≤ other.edge.index

/-- Every node reached but the source is entered by the lowest of some entries. -/
def EntersLowest (t : PathTree α) (among : NodeId → Entry → Prop) : Prop :=
  ∀ v, t.isReached v = true → v ≠ t.source → ∃ via, t.entry? v = some via ∧ Lowest (among v) via

theorem Parent.tightInto (parent : t.Parent net measure v via) (reached : t.isReached v = true)
    (other : via.node ≠ v) : t.TightInto net measure v via := by
  obtain ⟨edge, found, leaves, target⟩ := parent.edge
  obtain ⟨small, finite⟩ := isReached_iff.mp parent.reached
  obtain ⟨small', finite'⟩ := isReached_iff.mp reached
  refine ⟨edge, found, leaves, target, other, t.costAt via.node, ?_, ?_⟩
  · exact distance?_eq_some.mpr ⟨small, rfl, finite⟩
  · rw [← parent.cost]
    exact distance?_eq_some.mpr ⟨small', rfl, finite'⟩

theorem TightInto.tail_reached (tight : t.TightInto net measure v via) :
    t.isReached via.node = true ∧ t.costAt via.node + measure via.edge = t.costAt v := by
  obtain ⟨edge, -, -, -, -, d, tail, head⟩ := tight
  obtain ⟨small, rfl, finite⟩ := distance?_eq_some.mp tail
  exact ⟨isReached_iff.mpr ⟨small, finite⟩, (distance?_eq_some.mp head).2.1.symm⟩

/-! ## The tree that a network has -/

/-- The tree of a network, said without a search: it knows the least costs of walks, and enters each
node by the lowest tight edge into it. -/
structure Canonical (t : PathTree α) (net : Network) (measure : EdgeId → α) (source : NodeId) :
    Prop where
  root : t.source = source
  nodes : t.nodeCount = net.nodeCount
  entries : t.entry.size = net.nodeCount
  distance : ∀ {v d}, t.distance? v = some d ↔ net.LeastCost measure source v d
  cut : ∀ {v}, t.isReached v = false → t.costAt v = unreached ∧ t.entry? v = none
  bare : t.entry? source = none
  lowest : t.EntersLowest (t.TightInto net measure)

/-- Trees of as many nodes that agree on every cost and every entry are the same. -/
theorem eq_of_forall (root : t.source = other.source) (nodes : t.nodeCount = other.nodeCount)
    (entries : t.entry.size = other.entry.size) (costAt : ∀ v, t.costAt v = other.costAt v)
    (entry : ∀ v, t.entry? v = other.entry? v) : t = other := by
  have cost : t.cost = other.cost := by
    apply Array.ext nodes
    intro i h h'
    simpa [PathTree.costAt, h, h'] using costAt ⟨i⟩
  have entry : t.entry = other.entry := by
    apply Array.ext entries
    intro i h h'
    simpa [PathTree.entry?, h, h'] using entry ⟨i⟩
  cases t
  cases other
  simp_all

theorem Lowest.unique {among : Entry → Prop} {a b : Entry} (ha : Lowest among a)
    (hb : Lowest among b) : a.edge = b.edge :=
  Id.index_injective (Nat.le_antisymm (ha.2 b hb.1) (hb.2 a ha.1))

theorem TightInto.node_eq {via' : Entry} (tight : t.TightInto net measure v via)
    (tight' : t.TightInto net measure v via') (same : via.edge = via'.edge) : via = via' := by
  obtain ⟨edge, found, leaves, -⟩ := tight
  obtain ⟨edge', found', leaves', -⟩ := tight'
  rw [same] at found
  cases found.symm.trans found'
  cases via
  cases via'
  simp_all

/-- The network decides its tree. -/
theorem Canonical.unique (h : t.Canonical net measure source)
    (h' : other.Canonical net measure source) : t = other := by
  have distance (v : NodeId) : t.distance? v = other.distance? v := by
    apply Option.ext
    intro d
    exact h.distance.trans h'.distance.symm
  have reached (v : NodeId) : t.isReached v = other.isReached v := by
    rw [isReached, isReached, distance]
  have into (v : NodeId) : t.TightInto net measure v = other.TightInto net measure v := by
    funext via
    simp only [TightInto, distance]
  apply eq_of_forall
  · rw [h.root, h'.root]
  · rw [h.nodes, h'.nodes]
  · rw [h.entries, h'.entries]
  · intro v
    cases found : t.isReached v with
    | false => rw [(h.cut found).1, (h'.cut (by rw [← reached, found])).1]
    | true =>
      obtain ⟨small, finite⟩ := isReached_iff.mp found
      have held := distance v
      rw [distance?_eq_some.mpr ⟨small, rfl, finite⟩, eq_comm] at held
      exact (distance?_eq_some.mp held).2.1.symm
  · intro v
    cases found : t.isReached v with
    | false => rw [(h.cut found).2, (h'.cut (by rw [← reached, found])).2]
    | true =>
      by_cases home : v = source
      · rw [home, h.bare, h'.bare]
      · obtain ⟨via, held, low⟩ := h.lowest v found (by rwa [h.root])
        obtain ⟨via', held', low'⟩ := h'.lowest v (by rw [← reached, found]) (by rwa [h'.root])
        rw [← into] at low'
        rw [held, held', low.1.node_eq low'.1 (low.unique low')]

end PathTree

/-! ## Least-cost searches -/

/-- Sums that stay below the mark and go up with every edge. -/
structure CostOrder.Rising (net : Network) (measure : EdgeId → α) (source : NodeId) : Prop
    extends CostOrder.Additive net measure source where
  rises : ∀ {a e edge}, net.Attains measure source edge.source a → net.edge? e = some edge →
    lt a (a + measure e) = true

/-- Exact sums of positive lengths go up with every edge. -/
theorem rising_exact {κ : Type} [Semiring κ] [LinearOrder κ] [IsStrictOrderedRing κ]
    {measure : EdgeId → κ} (source : NodeId)
    (positive : ∀ {e edge}, net.edge? e = some edge → 0 < measure e) :
    CostOrder.Rising net (fun e => (measure e : WithTop κ)) source := by
  have additive := additive_exact source fun found => (positive found).le
  refine { additive with rises := fun attains found => ?_ }
  obtain ⟨sum, rfl⟩ := WithTop.ne_top_iff_exists.mp (isFinite_exact.mp (additive.finite attains))
  rw [lt_exact, ← WithTop.coe_add, WithTop.coe_lt_coe]
  exact lt_add_of_pos_right sum (positive found)

namespace Dijkstra

variable {s : State α σ} {order : List NodeId} {queue : Queue (Reached α) σ}
  {Holds : σ → Multiset (Reached α) → Prop}

/-- Entries from nodes that stand before another in an order. -/
def Earlier (order : List NodeId) (v : NodeId) (via : Entry) : Prop :=
  order.idxOf via.node < order.idxOf v

/-- The nodes reached have been settled one by one, and each is entered by the lowest of the tight
edges from nodes settled before it. -/
structure BreaksTies (t : PathTree α) (net : Network) (measure : EdgeId → α)
    (order : List NodeId) : Prop where
  nodup : order.Nodup
  settled : ∀ {v}, v ∈ order ↔ t.isReached v = true
  lowest : t.EntersLowest fun v via => t.TightInto net measure v via ∧ Earlier order v via

theorem Tight.breaksTies (tight : Tight net measure s order 0 [])
    (inv : Inv net measure source s order 0) : BreaksTies s.tree net measure order := by
  refine ⟨inv.nodup, inv.reached_iff.symm, ?_⟩
  intro v reached away
  rw [inv.root] at away
  obtain ⟨via, parent, -, first⟩ := inv.parent (PathTree.isReached_iff.mp reached).2 away
  have earlier := first (inv.reached_iff.mp reached)
  have apart : via.node ≠ v := fun same => earlier.ne (by rw [same])
  refine ⟨via, parent.held, ⟨parent.tightInto reached apart, earlier⟩, ?_⟩
  rintro other ⟨into, before⟩
  have level := into.tail_reached.2
  obtain ⟨edge, found, leaves, rfl, -⟩ := into
  rw [← leaves] at level
  rw [Earlier, ← leaves] at before
  exact tight.lowest found before List.not_mem_nil level parent.held

/-- With sums that go up, a tight edge leaves a node settled before the one it leads to. -/
theorem Tight.earlier (tight : Tight net measure s order 0 [])
    (inv : Inv net measure source s order 0) (law : CostOrder.Rising net measure source)
    {via : Entry} (into : s.tree.TightInto net measure v via)
    (reached : s.tree.isReached v = true) : Earlier order v via := by
  obtain ⟨before, level⟩ := into.tail_reached
  obtain ⟨edge, found, leaves, -⟩ := into
  have finite := (PathTree.isReached_iff.mp before).2
  have attains := inv.attains law.toCostOrder finite
  rw [← leaves] at attains level
  have below := law.rises attains found
  rw [level] at below
  by_contra late
  rw [Earlier, Nat.not_lt, ← leaves] at late
  have tail := inv.reached_iff.mp before
  rw [← leaves] at tail
  have head := inv.reached_iff.mp reached
  have low : AtMost (s.tree.costAt v) (s.tree.costAt edge.source) := by
    rcases late.eq_or_lt with same | later
    · rw [(List.idxOf_inj head).mp same]
      exact law.atMost_refl attains.met
    · have sorted := List.pairwise_iff_getElem.mp tight.ascending _ _
        (List.idxOf_lt_length_iff.mpr head) (List.idxOf_lt_length_iff.mpr tail) later
      simpa using sorted
  rw [low] at below
  cases below

theorem Tight.canonical (tight : Tight net measure s order 0 [])
    (inv : Inv net measure source s order 0) (sound : net.Sound)
    (law : CostOrder.Rising net measure source) : s.tree.Canonical net measure source where
  root := inv.root
  nodes := inv.nodes
  entries := inv.entries
  distance := by
    intro v d
    rw [tight.distance_iff inv sound law.growing]
    exact ⟨And.left, fun least => ⟨least, law.finite least.1⟩⟩
  cut := by
    intro v away
    have none (edges : List EdgeId) : ¬ net.Walk source v edges := by
      intro walk
      rw [← inv.root] at walk
      rw [(tight.bounded inv sound law.toAdditive walk).1] at away
      cases away
    constructor
    · rcases inv.met (v := v) with mark | ⟨edges, walk, -⟩
      · exact mark
      · exact absurd walk (none edges)
    · by_contra some
      obtain ⟨via, held⟩ := Option.ne_none_iff_exists'.mp some
      obtain ⟨settled, edge, found, leaves, rfl⟩ := inv.entered held
      obtain ⟨edges, walk, -⟩ := inv.attains law.toCostOrder (inv.reached settled)
      rw [← leaves] at walk
      exact none _ (walk.go found)
  bare := inv.bare
  lowest := by
    intro v reached away
    obtain ⟨via, held, among, low⟩ := (tight.breaksTies inv).lowest v reached away
    refine ⟨via, held, among.1, fun other into => ?_⟩
    exact low other ⟨into, tight.earlier inv law into reached⟩

/-- Whatever queue gives out some entry of least cost, each node is entered by the lowest of the
tight edges from nodes settled before it, and when sums go up the network decides the tree. -/
theorem searchWith_ties
    (lawful : queue.Lawful (Reached.Legal net measure source) Reached.cheaper Holds)
    (sound : net.Sound) (law : CostOrder.Additive net measure source)
    (home : net.hasNode source = true) :
    ∃ t : PathTree α, searchWith queue net measure source = .ok t ∧
      BreaksTies t net measure (settledBy queue net measure source) ∧
      (CostOrder.Rising net measure source → t.Canonical net measure source) := by
  obtain ⟨s, found, inv, tight⟩ := searchWith_eq lawful sound law.toCostOrder home
  have tight := tight law.growing
  exact ⟨s.tree, found, tight.breaksTies inv, tight.canonical inv sound⟩

end Dijkstra

/-- Without rounding, a node is entered by the lowest of the tight edges from nodes settled before
it. If all lengths are positive, it is entered by the lowest of all tight edges. The network alone
then decides the tree, and any queue that gives out entries of least cost leads to it. -/
theorem least_cost_ties {κ : Type} [Semiring κ] [LinearOrder κ] [IsStrictOrderedRing κ]
    {lengths : EdgeId → κ} (built : net.Built) (home : net.hasNode source = true)
    (nonneg : ∀ {e edge}, net.edge? e = some edge → 0 ≤ lengths e) :
    ∃ t : PathTree (WithTop κ),
      Dijkstra.search net (fun e => (lengths e : WithTop κ)) source = .ok t ∧
      Dijkstra.BreaksTies t net (fun e => (lengths e : WithTop κ))
        (Dijkstra.settledBy (Heap.queue Reached.before) net (fun e => (lengths e : WithTop κ))
          source) ∧
      ((∀ {e edge}, net.edge? e = some edge → 0 < lengths e) →
        t.Canonical net (fun e => (lengths e : WithTop κ)) source ∧
        (∀ other : PathTree (WithTop κ),
          other.Canonical net (fun e => (lengths e : WithTop κ)) source → other = t) ∧
        ∀ {σ : Type} (queue : Queue (Reached (WithTop κ)) σ)
          (Holds : σ → Multiset (Reached (WithTop κ)) → Prop),
          queue.Lawful (Reached.Legal net (fun e => (lengths e : WithTop κ)) source)
              Reached.cheaper Holds →
            Dijkstra.searchWith queue net (fun e => (lengths e : WithTop κ)) source = .ok t) := by
  have law := additive_exact source nonneg
  have heap := (Heap.queue_lawful law.toCostOrder.ranks).cheaper
  obtain ⟨t, found, lowest, canonical⟩ := Dijkstra.searchWith_ties heap built.sound law home
  refine ⟨t, found, lowest, fun positive => ?_⟩
  have rising := rising_exact source positive
  refine ⟨canonical rising, fun other h => h.unique (canonical rising), ?_⟩
  intro σ queue Holds lawful
  obtain ⟨t', found', -, canonical'⟩ := Dijkstra.searchWith_ties lawful built.sound law home
  rw [found', (canonical' rising).unique (canonical rising)]

/-- A heap that orders entries by cost alone finds the same tree. -/
theorem least_cost_ties_sample :
    ∃ t : PathTree (WithTop ℕ),
      Dijkstra.search Network.sample (fun _ => ((1 : ℕ) : WithTop ℕ)) ⟨0⟩ = .ok t ∧
      t.Canonical Network.sample (fun _ => ((1 : ℕ) : WithTop ℕ)) ⟨0⟩ ∧
      Dijkstra.searchWith (Heap.queue Reached.cheaper) Network.sample
        (fun _ => ((1 : ℕ) : WithTop ℕ)) ⟨0⟩ = .ok t := by
  have order := costOrder_exact Network.sample (fun _ => ((1 : ℕ) : WithTop ℕ)) ⟨0⟩
  obtain ⟨t, found, -, positive⟩ := @least_cost_ties Network.sample ⟨0⟩ ℕ _ _ _ (fun _ => 1)
    Network.sample_built (by decide) fun _ => Nat.zero_le _
  obtain ⟨canonical, -, others⟩ := positive fun _ => Nat.one_pos
  exact ⟨t, found, canonical, others _ _ (Heap.queue_lawful order.ranks_cheaper)⟩

/-! ## Fewest-edge searches -/

/-- Of the walks between two nodes with the fewest edges, the first in the order of a dictionary. -/
structure Network.FirstShortest (net : Network) (source v : NodeId) (edges : List EdgeId) :
    Prop where
  walk : net.Walk source v edges
  fewest : ∀ {other}, net.Walk source v other → edges.length ≤ other.length
  first : ∀ {other}, net.Walk source v other → other.length = edges.length →
    edges.map (·.index) ≤ other.map (·.index)

/-- The tree has the first of the shortest walks to every node to which there are any. -/
structure PathTree.FindsFirst (t : PathTree α) (net : Network) (source : NodeId) : Prop where
  reached : ∀ {v}, t.isReached v = true ↔ ∃ edges, net.Walk source v edges
  found : ∀ {v}, t.isReached v = true → ∃ edges, t.path v = .ok edges
  path : ∀ {v edges}, t.path v = .ok edges ↔ net.FirstShortest source v edges

theorem Network.firstShortest_iff {edges : List EdgeId} :
    net.FirstShortest source v edges ↔ net.Walk source v edges ∧
      ∀ other, net.Walk source v other → standing edges ≤ standing other := by
  constructor
  · rintro ⟨walk, fewest, first⟩
    refine ⟨walk, fun other along => standing_le_iff.mpr ?_⟩
    rcases (fewest along).lt_or_eq with fewer | same
    · exact .inl fewer
    · exact .inr ⟨same, first along same.symm⟩
  · rintro ⟨walk, least⟩
    refine ⟨walk, fun along => length_le_of_standing_le (least _ along), fun along same => ?_⟩
    rcases standing_le_iff.mp (least _ along) with fewer | ⟨-, low⟩
    · exact absurd same fewer.ne'
    · exact low

theorem BreadthFirst.search_findsFirst (sound : net.Sound) (law : Counted α net source)
    (home : net.hasNode source = true) :
    ∃ t : PathTree α, search net source = .ok t ∧ t.FindsFirst net source := by
  obtain ⟨s, way, found, inv, followed⟩ := search_visited sound law home
  have reached {v : NodeId} : s.tree.isReached v = true ↔ v ∈ s.reached.toList := by
    rw [PathTree.isReached_iff, inv.nodes, inv.reached]
    exact ⟨And.right, fun h => ⟨inv.inside sound h, h⟩⟩
  have path {v : NodeId} (h : v ∈ s.reached.toList) : s.tree.path v = .ok (way v) := by
    obtain ⟨edges, path, branch⟩ := (inv.rooted_of_counted sound law).path_ok (reached.mpr h)
    rw [path, branch.unique (inv.branch h)]
  have first {v : NodeId} (h : v ∈ s.reached.toList) : net.FirstShortest source v (way v) :=
    Network.firstShortest_iff.mpr ⟨inv.walk h, fun _ walk => (inv.way_le followed walk).2⟩
  refine ⟨s.tree, found, ⟨?_, fun h => ⟨_, path (reached.mp h)⟩, ?_⟩⟩
  · intro v
    rw [reached]
    exact ⟨fun h => ⟨_, inv.walk h⟩, fun ⟨_, walk⟩ => (inv.way_le followed walk).1⟩
  · intro v edges
    constructor
    · intro held
      have h : v ∈ s.reached.toList := by
        by_contra away
        rw [← reached] at away
        by_cases inside : v.index < s.tree.nodeCount
        · rw [PathTree.path_of_not_reached inside away] at held
          cases held
        · rw [PathTree.path_of_outside (Nat.not_lt.mp inside)] at held
          cases held
      cases (path h).symm.trans held
      exact first h
    · intro shortest
      obtain ⟨walk, least⟩ := Network.firstShortest_iff.mp shortest
      obtain ⟨h, low⟩ := inv.way_le followed walk
      rw [path h, standing_injective (low.antisymm (least _ (inv.walk h)))]

/-- When edges are counted, the path to a node is the first of the shortest ones. -/
theorem fewest_edges_ties (built : net.Built) (home : net.hasNode source = true) :
    ∃ t, Policy.hops.engine.search net source = .ok t ∧ t.FindsFirst net source :=
  BreadthFirst.search_findsFirst built.sound (additive_counts net source).counted home

theorem fewest_edges_ties_sample :
    ∃ t, Policy.hops.engine.search Network.sample ⟨0⟩ = .ok t ∧
      t.FindsFirst Network.sample ⟨0⟩ :=
  fewest_edges_ties Network.sample_built (by decide)

end RoadFlow
