import RoadFlow.Matrix.Assembly
import RoadFlow.Proofs.Network.Construction

/-!
# What an assembly depends on

Of a network that was built, searches look at the number of nodes and at where each edge leads and
how long it is (`Network.SameLinks`). Of a clustering, assemblies look at the centroids and at the
number of nodes (`Assembly.ofPolicy_congr`).
-/

namespace RoadFlow

/-- An edge but for its name. -/
def Edge.link (e : Edge) : NodeId × NodeId × Float := (e.source, e.target, e.length)

/-- Two networks agree on their number of nodes and, but for names, on their edges. -/
structure Network.SameLinks (a b : Network) : Prop where
  nodes : a.nodeCount = b.nodeCount
  links : a.edges.toList.map Edge.link = b.edges.toList.map Edge.link

namespace Network.SameLinks

variable {a b : Network} (same : a.SameLinks b)

include same

theorem edgeCount : a.edgeCount = b.edgeCount := by
  simpa [Network.edgeCount] using congrArg List.length same.links

theorem edge? (e : EdgeId) : (a.edge? e).map Edge.link = (b.edge? e).map Edge.link := by
  have links := congrArg (·[e.index]?) same.links
  simpa [Network.edge?] using links

/-- An edge of one network is one of the other, with the same link. -/
theorem cases_edge? (e : EdgeId) :
    (a.edge? e = none ∧ b.edge? e = none) ∨
      ∃ f g, a.edge? e = some f ∧ b.edge? e = some g ∧ f.source = g.source ∧
        f.target = g.target ∧ f.length = g.length := by
  have links := same.edge? e
  cases left : a.edge? e with
  | none =>
    rw [left, Option.map_none, eq_comm, Option.map_eq_none_iff] at links
    exact .inl ⟨rfl, links⟩
  | some f =>
    rw [left, Option.map_some, eq_comm, Option.map_eq_some_iff] at links
    obtain ⟨g, right, link⟩ := links
    simp only [Edge.link, Prod.mk.injEq] at link
    exact .inr ⟨f, g, rfl, right, link.1.symm, link.2.1.symm, link.2.2.symm⟩

theorem isLoop (e : EdgeId) : a.isLoop e = b.isLoop e := by
  rw [Network.isLoop, Network.isLoop]
  rcases same.cases_edge? e with ⟨left, right⟩ | ⟨f, g, left, right, source, target, -⟩
  · rw [left, right]
  · rw [left, right, Option.any_some, Option.any_some, source, target]

theorem lengthOf : a.lengthOf = b.lengthOf := by
  funext e
  rw [Network.lengthOf, Network.lengthOf]
  rcases same.cases_edge? e with ⟨left, right⟩ | ⟨f, g, left, right, -, -, length⟩
  · rw [left, right]
  · rw [left, right, Option.map_some, Option.map_some, length]

theorem leaves (n : NodeId) (e : EdgeId) : a.leaves n e = b.leaves n e := by
  rw [Network.leaves, Network.leaves]
  rcases same.cases_edge? e with ⟨left, right⟩ | ⟨f, g, left, right, source, -, -⟩
  · rw [left, right]
  · rw [left, right, Option.any_some, Option.any_some, source]

theorem edgesFrom (left : a.Sound) (right : b.Sound) (n : NodeId) :
    a.edgesFrom n = b.edgesFrom n := by
  have edgeIds : a.edgeIds = b.edgeIds := by
    rw [Network.edgeIds, Network.edgeIds, same.edgeCount]
  rw [left.edgesFrom_eq, right.edgesFrom_eq, edgeIds]
  exact List.filter_congr fun e _ => same.leaves n e

theorem checkNode (n : NodeId) : a.checkNode n = b.checkNode n := by
  rw [Network.checkNode, Network.checkNode, Network.hasNode, Network.hasNode, same.nodes]

end Network.SameLinks

/-! ## Searches -/

section Searches

variable {a b : Network} {α σ : Type} [PathCost α]

namespace Dijkstra

variable (queue : Queue (Reached α) σ) (measure : EdgeId → α) (here : Reached α)

theorem relax_congr (same : a.SameLinks b) :
    relax queue a measure here = relax queue b measure here := by
  funext s e
  rw [relax, relax]
  rcases same.cases_edge? e with ⟨left, right⟩ | ⟨f, g, left, right, -, target, -⟩
  · rw [left, right]
  · simp only [left, right, same.isLoop e, target]

theorem settle_congr (same : a.SameLinks b) (left : a.Sound) (right : b.Sound) :
    settle queue a measure here = settle queue b measure here := by
  funext s
  rw [settle, settle, relax_congr queue measure here same,
    same.edgesFrom left right here.node]

theorem run_congr (same : a.SameLinks b) (left : a.Sound) (right : b.Sound) (fuel : Nat)
    (s : State α σ) : run queue a measure fuel s = run queue b measure fuel s := by
  induction fuel generalizing s with
  | zero => rfl
  | succ fuel ih =>
    rw [run, run]
    cases queue.popLeast? s.frontier with
    | none => rfl
    | some least =>
      obtain ⟨here, rest⟩ := least
      simp only [settle_congr queue measure here same left right]
      exact ih _

theorem search_congr (same : a.SameLinks b) (left : a.Sound) (right : b.Sound) (source : NodeId) :
    search a measure source = search b measure source := by
  have start : start (Heap.queue Reached.before) a source =
      Dijkstra.start (α := α) (Heap.queue Reached.before) b source := by
    rw [Dijkstra.start, Dijkstra.start, same.nodes]
  rw [search, search, searchWith, searchWith, same.checkNode, same.edgeCount, start,
    run_congr _ measure same left right]

end Dijkstra

namespace BreadthFirst

theorem follow_congr (same : a.SameLinks b) (here : NodeId) (hops : α) :
    follow a here hops = follow b here hops := by
  funext s e
  rw [follow, follow]
  rcases same.cases_edge? e with ⟨left, right⟩ | ⟨f, g, left, right, -, target, -⟩
  · rw [left, right]
  · simp only [left, right, target]

theorem run_congr (same : a.SameLinks b) (left : a.Sound) (right : b.Sound) (fuel i : Nat)
    (s : State α) : run a fuel i s = run b fuel i s := by
  induction fuel generalizing i s with
  | zero => rfl
  | succ fuel ih =>
    rw [run, run]
    cases s.reached[i]? with
    | none => rfl
    | some here =>
      simp only [visit, follow_congr same, same.edgesFrom left right]
      exact ih _ _

theorem search_congr (same : a.SameLinks b) (left : a.Sound) (right : b.Sound) (source : NodeId) :
    (search a source : Except NetworkFault (PathTree α)) = search b source := by
  rw [search, search, same.checkNode, same.nodes, run_congr same left right]

end BreadthFirst

theorem Policy.search_congr (policy : Policy) (same : a.SameLinks b) (left : a.Sound)
    (right : b.Sound) (source : NodeId) :
    policy.engine.search a source = policy.engine.search b source := by
  cases policy with
  | length =>
    show Dijkstra.search a a.lengthOf source = Dijkstra.search b b.lengthOf source
    rw [same.lengthOf, Dijkstra.search_congr b.lengthOf same left right]
  | hops => exact BreadthFirst.search_congr same left right source

end Searches

/-! ## Assemblies -/

/-- Two clusterings of as many nodes have the same centroids. -/
structure Clustering.SameCenters (c d : Clustering) : Prop where
  nodes : c.nodeCount = d.nodeCount
  centroids : c.centroids = d.centroids

namespace Assembly

variable {a b : Network} {c d : Clustering} {α : Type} [PathCost α]

theorem blocksFrom_congr {engine : Engine α}
    (search : ∀ n, engine.search a n = engine.search b n) (centers : c.SameCenters d)
    (origin : ClusterId) : blocksFrom engine a c origin = blocksFrom engine b d origin := by
  have centroidOf : c.centroidOf = d.centroidOf := by
    funext i
    rw [Clustering.centroidOf, Clustering.centroidOf, centers.centroids]
  have clusters : c.clusters = d.clusters := by
    rw [Clustering.clusters, Clustering.clusters, Clustering.clusterCount,
      Clustering.clusterCount, centers.centroids]
  have pairs (tree : PathTree α) : pairBlock c tree origin = pairBlock d tree origin := by
    funext j
    rw [pairBlock, pairBlock, centroidOf]
  rw [blocksFrom, blocksFrom, search, centroidOf, clusters]
  simp only [pairs]

/-- The assembly of a network and a clustering is that of any others with the same links and
centroids. -/
theorem ofPolicy_congr (policy : Policy) (same : a.SameLinks b) (left : a.Sound) (right : b.Sound)
    (centers : c.SameCenters d) : ofPolicy a c policy = ofPolicy b d policy := by
  have clusterCount : c.clusterCount = d.clusterCount := by
    rw [Clustering.clusterCount, Clustering.clusterCount, centers.centroids]
  have clusters : c.clusters = d.clusters := by
    rw [Clustering.clusters, Clustering.clusters, clusterCount]
  have blocks : blocksFrom policy.engine a c = blocksFrom policy.engine b d :=
    funext fun i => blocksFrom_congr (policy.search_congr same left right) centers i
  rw [ofPolicy, ofPolicy, ofEngine, ofEngine]
  simp only [same.nodes, same.edgeCount, same.checkNode, centers.nodes, centers.centroids,
    clusterCount, clusters, blocks]

end Assembly

end RoadFlow
