import Mathlib.Algebra.BigOperators.Group.List.Basic
import RoadFlow.Proofs.Matrix.Assembly

/-!
# Assembled routes

With costs that are not rounded, the matrix that is assembled marks for each pair the edges of the
route between its centroids, which is a shortest one, and the survey lists the pairs without a walk
(`assembly_faithful`).
-/

namespace RoadFlow

variable {κ : Type} [Semiring κ]

theorem Policy.costWith_exact (policy : Policy) (lengths : EdgeId → κ) :
    policy.costWith (fun e => (lengths e : WithTop κ)) =
      fun e => ((policy.costWith lengths e : κ) : WithTop κ) := by
  cases policy <;> rfl

variable [LinearOrder κ]

theorem walkCost_exact (cost : EdgeId → κ) (edges : List EdgeId) :
    walkCost (fun e => (cost e : WithTop κ)) edges = ((edges.map cost).sum : κ) := by
  induction edges using List.reverseRecOn with
  | nil => rfl
  | append_singleton edges e ih =>
    rw [walkCost_concat, ih, List.map_append, List.sum_append]
    simp

/-- Edges that lead from the centroid of one cluster to that of another. -/
def Network.Joins (net : Network) (clusters : Clustering) (p : OdPair) : Prop :=
  ∃ edges, net.Walk (clusters.centroidOf p.origin) (clusters.centroidOf p.destination) edges

/-- The assembly holds the routes of an engine, and they are shortest. -/
structure Assembly.Faithful (a : Assembly) (engine : Engine (WithTop κ)) (net : Network)
    (clusters : Clustering) (cost : EdgeId → κ) : Prop where
  entry : ∀ {p : OdPair} {e : EdgeId}, p.Within clusters.clusterCount →
    ((a.matrix.entry e p : Float32) = 1 ↔ p.origin ≠ p.destination ∧ net.Joins clusters p ∧
      ∃ route, engine.route net (clusters.centroidOf p.origin)
        (clusters.centroidOf p.destination) = .ok route ∧ e ∈ route.edges)
  column : ∀ {p : OdPair}, p.Within clusters.clusterCount → p.origin ≠ p.destination →
    net.Joins clusters p →
    (∃ route, engine.route net (clusters.centroidOf p.origin)
      (clusters.centroidOf p.destination) = .ok route ∧
      (a.matrix.edgesOf p).length = route.edges.length) ∧
    net.LeastCost (fun e => (cost e : WithTop κ)) (clusters.centroidOf p.origin)
      (clusters.centroidOf p.destination) (((a.matrix.edgesOf p).map cost).sum : κ)
  shared : ∀ {p : OdPair}, p.Within clusters.clusterCount →
    clusters.centroidOf p.origin = clusters.centroidOf p.destination →
    a.matrix.edgesOf p = [] ∧ p ∉ a.survey.unreachable
  ordered : (a.survey.unreachable.map (·.column clusters.clusterCount)).Pairwise (· < ·)
  unreachable : ∀ p : OdPair, p ∈ a.survey.unreachable ↔
    p.Within clusters.clusterCount ∧ p.origin ≠ p.destination ∧ ¬ net.Joins clusters p

namespace Assembly

variable {net : Network} {clusters : Clustering} {engine : Engine (WithTop κ)}
  {cost : EdgeId → κ} {tree : ClusterId → PathTree (WithTop κ)} {p : OdPair}

theorem Found.joins_iff (found : Found engine net clusters (fun e => (cost e : WithTop κ)) tree)
    (bounded : ∀ i : ClusterId, i.index < clusters.clusterCount →
      (tree i).Bounded net fun e => (cost e : WithTop κ))
    (within : p.Within clusters.clusterCount) (off : p.origin ≠ p.destination) :
    cutIn clusters tree p = false ↔ net.Joins clusters p := by
  have diagonal : p.isDiagonal = false := by simpa [OdPair.isDiagonal] using off
  rw [Network.Joins, ← found.source within.1, cutIn, diagonal]
  simp only [Bool.not_false, Bool.true_and, Bool.not_eq_false']
  constructor
  · intro reached
    obtain ⟨edges, walk, -⟩ := (found.rooted within.1).attains reached
    exact ⟨edges, walk⟩
  · rintro ⟨edges, walk⟩
    exact (bounded p.origin within.1 walk).1

section Bounded

variable (found : Found engine net clusters (fun e => (cost e : WithTop κ)) tree)
  (bounded : ∀ i : ClusterId, i.index < clusters.clusterCount →
    (tree i).Bounded net fun e => (cost e : WithTop κ))

include found bounded

theorem Found.engine_route (sound : clusters.Sound net) (within : p.Within clusters.clusterCount)
    (off : p.origin ≠ p.destination) (joins : net.Joins clusters p) :
    engine.route net (clusters.centroidOf p.origin) (clusters.centroidOf p.destination) =
      .ok ⟨routeIn clusters tree p,
        (tree p.origin).costAt (clusters.centroidOf p.destination)⟩ := by
  have isOpen := (found.joins_iff bounded within off).mpr joins
  have target : net.hasNode (clusters.centroidOf p.destination) = true := by
    simpa [Network.hasNode] using centroid_inside sound within.2
  obtain ⟨reached, branch⟩ := found.branch within off isOpen
  obtain ⟨edges, path, branch'⟩ := (found.rooted within.1).path_ok reached
  rw [Engine.route_eq target (found.search within.1), PathTree.route, path, branch'.unique branch]
  rfl

theorem Found.mem_routeIn (sound : clusters.Sound net) (within : p.Within clusters.clusterCount)
    {e : EdgeId} :
    e ∈ routeIn clusters tree p ↔ p.origin ≠ p.destination ∧ net.Joins clusters p ∧
      ∃ route, engine.route net (clusters.centroidOf p.origin)
        (clusters.centroidOf p.destination) = .ok route ∧ e ∈ route.edges := by
  constructor
  · intro marked
    obtain ⟨off, isOpen⟩ := found.open_of_mem sound within marked
    have joins := (found.joins_iff bounded within off).mp isOpen
    exact ⟨off, joins, _, found.engine_route bounded sound within off joins, marked⟩
  · rintro ⟨off, joins, route, routed, marked⟩
    cases (found.engine_route bounded sound within off joins).symm.trans routed
    exact marked

/-- Clusters that share a centroid need no edge to reach each other. -/
theorem Found.routeIn_shared (within : p.Within clusters.clusterCount)
    (shared : clusters.centroidOf p.origin = clusters.centroidOf p.destination) :
    routeIn clusters tree p = [] ∧ cutIn clusters tree p = false := by
  by_cases off : p.origin = p.destination
  · have diagonal : p.isDiagonal = true := by simpa [OdPair.isDiagonal] using off
    simp [routeIn, cutIn, diagonal]
  · have joins : net.Joins clusters p := by
      rw [Network.Joins, shared]
      exact ⟨[], .stay⟩
    have isOpen := (found.joins_iff bounded within off).mpr joins
    obtain ⟨-, branch⟩ := found.branch within off isOpen
    rw [← shared, ← found.source within.1] at branch
    exact ⟨branch.unique .root, isOpen⟩

theorem Found.leastCost (within : p.Within clusters.clusterCount) (off : p.origin ≠ p.destination)
    (joins : net.Joins clusters p) :
    net.LeastCost (fun e => (cost e : WithTop κ)) (clusters.centroidOf p.origin)
      (clusters.centroidOf p.destination) (((routeIn clusters tree p).map cost).sum : κ) := by
  have isOpen := (found.joins_iff bounded within off).mpr joins
  obtain ⟨reached, branch⟩ := found.branch within off isOpen
  have rooted := found.rooted within.1
  have total := (branch.walk rooted reached).2
  rw [walkCost_exact] at total
  rw [total, ← found.source within.1]
  exact ⟨rooted.attains reached, fun edges walk => (bounded p.origin within.1 walk).2⟩

theorem Found.mem_cut :
    p ∈ (OdPair.all clusters.clusterCount).filter (cutIn clusters tree) ↔
      p.Within clusters.clusterCount ∧ p.origin ≠ p.destination ∧ ¬ net.Joins clusters p := by
  rw [List.mem_filter, OdPair.mem_all]
  constructor
  · rintro ⟨within, cut⟩
    have off : p.origin ≠ p.destination := by
      intro same
      have diagonal : p.isDiagonal = true := by simpa [OdPair.isDiagonal] using same
      simp [cutIn, diagonal] at cut
    refine ⟨within, off, fun joins => ?_⟩
    rw [(found.joins_iff bounded within off).mpr joins] at cut
    cases cut
  · rintro ⟨within, off, apart⟩
    rw [← found.joins_iff bounded within off, Bool.not_eq_false] at apart
    exact ⟨within, apart⟩

theorem ofEngine_faithful (sound : clusters.Sound net) :
    ∃ a, ofEngine engine net clusters = .ok a ∧ a.Faithful engine net clusters cost := by
  obtain ⟨a, assembled, matrix, unreachable⟩ := ofEngine_ok found sound
  have edgesOf {p : OdPair} (within : p.Within clusters.clusterCount) :
      a.matrix.edgesOf p = Id.sortUnique (routeIn clusters tree p) := by
    rw [matrix]
    exact AssignmentMatrix.column_ofRoutes within
  refine ⟨a, assembled, ?_, ?_, ?_, ?_, ?_⟩
  · intro p e within
    rw [AssignmentMatrix.entry_eq_one, edgesOf within, Id.mem_sortUnique]
    exact found.mem_routeIn bounded sound within
  · intro p within off joins
    have perm := Id.sortUnique_perm (found.route sound within).1
    rw [edgesOf within, (perm.map cost).sum_eq]
    exact ⟨⟨_, found.engine_route bounded sound within off joins, perm.length_eq⟩,
      found.leastCost bounded within off joins⟩
  · intro p within shared
    obtain ⟨empty, isOpen⟩ := found.routeIn_shared bounded within shared
    rw [edgesOf within, empty, unreachable]
    refine ⟨Id.sortUnique_of_ascending List.Pairwise.nil, fun listed => ?_⟩
    rw [(List.mem_filter.mp listed).2] at isOpen
    cases isOpen
  · have sorted : ((OdPair.all clusters.clusterCount).map
        (·.column clusters.clusterCount)).Pairwise (· < ·) := by
      rw [OdPair.column_all]
      exact List.pairwise_lt_range
    rw [unreachable]
    exact sorted.sublist (List.filter_sublist.map _)
  · intro p
    rw [unreachable]
    exact found.mem_cut bounded

end Bounded

end Assembly

/-- Under either policy, the matrix that is assembled marks the edges of shortest routes, and the
survey lists the pairs that have none. -/
theorem assembly_faithful [IsStrictOrderedRing κ] {net : Network} (built : net.Built)
    {clusters : Clustering} (clustering : clusters.Built net) (policy : Policy)
    {lengths : EdgeId → κ} (nonneg : ∀ {e edge}, net.edge? e = some edge → 0 ≤ lengths e) :
    ∃ a, Assembly.ofEngine (policy.engineWith fun _ e => (lengths e : WithTop κ)) net clusters =
        .ok a ∧
      a.Faithful (policy.engineWith fun _ e => (lengths e : WithTop κ)) net clusters
        (policy.costWith lengths) := by
  have additive (source : NodeId) :
      CostOrder.Additive net (policy.costWith fun e => (lengths e : WithTop κ)) source := by
    cases policy with
    | length => exact additive_exact source nonneg
    | hops => exact additive_one net source
  have lawful (source : NodeId) :
      policy.Lawful net (fun e => (lengths e : WithTop κ)) source := by
    cases policy with
    | length => exact costOrder_exact net _ source
    | hops => exact additive_one net source
  obtain ⟨tree, found, bounded⟩ := @Assembly.exists_found (WithTop κ) _ net clusters
    (fun _ e => lengths e) policy built.sound clustering.sound fun i _ => lawful _
  have bounded' (i : ClusterId) (hi : i.index < clusters.clusterCount) :=
    bounded i hi (additive _)
  simp only [policy.costWith_exact] at found bounded'
  exact Assembly.ofEngine_faithful found bounded' clustering.sound

theorem assembly_faithful_sample :
    ∃ a, Assembly.ofEngine (Policy.length.engineWith fun _ e => ((1 - e.index / 2 : ℕ) : WithTop ℕ))
        Network.sample Clustering.sample = .ok a ∧
      a.Faithful (Policy.length.engineWith fun _ e => ((1 - e.index / 2 : ℕ) : WithTop ℕ))
        Network.sample Clustering.sample fun e => 1 - e.index / 2 :=
  assembly_faithful Network.sample_built Clustering.sample_built .length fun _ => Nat.zero_le _

end RoadFlow
