import RoadFlow.Matrix.Assembly
import RoadFlow.Proofs.Cluster.Clustering
import RoadFlow.Proofs.Matrix.Columns
import RoadFlow.Proofs.Route.Engine
import RoadFlow.Scalar

/-!
# Assemblies

When the searches from all centroids give rooted trees, an assembly succeeds, its column for a pair
holds the edges of the path that the tree of the origin has to the centroid of the destination, and
its survey lists the pairs for which that tree has none (`ofEngine_ok`).
-/

namespace RoadFlow.Assembly

variable {α : Type} [PathCost α] {engine : Engine α} {net : Network} {clusters : Clustering}
  {cost : EdgeId → α} {tree : ClusterId → PathTree α} {p : OdPair}

/-- The edges on the way between the centroids of a pair. -/
def routeIn (clusters : Clustering) (tree : ClusterId → PathTree α) (p : OdPair) : List EdgeId :=
  if p.isDiagonal then []
  else ((tree p.origin).path (clusters.centroidOf p.destination)).toOption.getD []

/-- Whether a pair of two clusters has no way between its centroids. -/
def cutIn (clusters : Clustering) (tree : ClusterId → PathTree α) (p : OdPair) : Bool :=
  !p.isDiagonal && !(tree p.origin).isReached (clusters.centroidOf p.destination)

/-- An assembled matrix is valid and has the shape of its network and clustering. -/
theorem ofEngine_valid {a : Assembly} (h : ofEngine engine net clusters = .ok a) :
    a.matrix.edgeCount = net.edgeCount ∧ a.matrix.clusterCount = clusters.clusterCount ∧
      a.matrix.Valid := by
  unfold ofEngine at h
  split at h
  · cases h
  obtain ⟨_, -, h⟩ := bind_eq_ok.mp h
  obtain ⟨blocks, -, h⟩ := bind_eq_ok.mp h
  obtain ⟨matrix, made, h⟩ := bind_eq_ok.mp h
  cases h
  obtain ⟨edges, few⟩ := AssignmentMatrix.shape_of_ofColumns made
  exact ⟨edges, few, AssignmentMatrix.valid_of_ofColumns made⟩

/-- A search from each centroid has given a rooted tree. -/
structure Found (engine : Engine α) (net : Network) (clusters : Clustering) (cost : EdgeId → α)
    (tree : ClusterId → PathTree α) : Prop where
  search : ∀ {i : ClusterId}, i.index < clusters.clusterCount →
    engine.search net (clusters.centroidOf i) = .ok (tree i)
  source : ∀ {i : ClusterId}, i.index < clusters.clusterCount →
    (tree i).source = clusters.centroidOf i
  rooted : ∀ {i : ClusterId}, i.index < clusters.clusterCount → (tree i).Rooted net cost

theorem centroid_inside (sound : clusters.Sound net) {i : ClusterId}
    (hi : i.index < clusters.clusterCount) :
    (clusters.centroidOf i).index < net.nodeCount := by
  apply sound.centroids
  rw [Clustering.centroidOf, Array.getD_eq_getD_getElem?, Array.getElem?_eq_getElem hi]
  exact Array.getElem_mem_toList hi

/-- The route of a pair that is not cut off, as a branch of the tree of its origin. -/
theorem Found.branch (found : Found engine net clusters cost tree)
    (within : p.Within clusters.clusterCount) (off : p.origin ≠ p.destination)
    (open_ : cutIn clusters tree p = false) :
    (tree p.origin).isReached (clusters.centroidOf p.destination) = true ∧
      (tree p.origin).Branch (clusters.centroidOf p.destination) (routeIn clusters tree p) := by
  have diagonal : p.isDiagonal = false := by simpa [OdPair.isDiagonal] using off
  have reached : (tree p.origin).isReached (clusters.centroidOf p.destination) = true := by
    simpa [cutIn, diagonal] using open_
  obtain ⟨edges, path, branch⟩ := (found.rooted within.1).path_ok reached
  refine ⟨reached, ?_⟩
  rw [routeIn, diagonal, if_neg Bool.false_ne_true, path]
  exact branch

theorem Found.routeIn_cut (found : Found engine net clusters cost tree)
    (sound : clusters.Sound net) (within : p.Within clusters.clusterCount)
    (cut : cutIn clusters tree p = true) : routeIn clusters tree p = [] := by
  rw [cutIn, Bool.and_eq_true, Bool.not_eq_true', Bool.not_eq_true'] at cut
  have inside := centroid_inside sound within.2
  rw [← (found.rooted within.1).nodes] at inside
  rw [routeIn, cut.1, if_neg Bool.false_ne_true,
    PathTree.path_of_not_reached inside (by simp [cut.2])]
  rfl

theorem pairBlock_ok (found : Found engine net clusters cost tree) (sound : clusters.Sound net)
    (within : p.Within clusters.clusterCount) :
    pairBlock clusters (tree p.origin) p.origin p.destination =
      .ok ⟨[routeIn clusters tree p], if cutIn clusters tree p then [p] else []⟩ := by
  have inside := centroid_inside sound within.2
  rw [← (found.rooted within.1).nodes] at inside
  rw [pairBlock]
  by_cases diagonal : p.isDiagonal = true
  · simp [diagonal, routeIn, cutIn]
  · have diagonal' : ¬ OdPair.isDiagonal ⟨p.origin, p.destination⟩ = true := diagonal
    rw [if_neg diagonal']
    by_cases reached : (tree p.origin).isReached (clusters.centroidOf p.destination) = true
    · obtain ⟨edges, path, -⟩ := (found.rooted within.1).path_ok reached
      simp [path, routeIn, cutIn, diagonal, reached, Except.toOption]
    · rw [PathTree.path_of_not_reached inside reached]
      simp [PathTree.path_of_not_reached inside reached, routeIn, cutIn, diagonal, reached,
        Except.toOption]

/-- Every route holds edges of the network, none of them twice. -/
theorem Found.route (found : Found engine net clusters cost tree) (sound : clusters.Sound net)
    (within : p.Within clusters.clusterCount) :
    (routeIn clusters tree p).Nodup ∧
      AssignmentMatrix.Fits net.edgeCount p (routeIn clusters tree p) := by
  by_cases off : p.origin = p.destination
  · have diagonal : p.isDiagonal = true := by simpa [OdPair.isDiagonal] using off
    simp [AssignmentMatrix.Fits, routeIn, diagonal]
  · cases cut : cutIn clusters tree p with
    | true =>
      rw [found.routeIn_cut sound within cut]
      exact ⟨List.nodup_nil, fun _ => rfl, fun _ h => absurd h List.not_mem_nil⟩
    | false =>
      obtain ⟨reached, branch⟩ := found.branch within off cut
      have rooted := found.rooted within.1
      refine ⟨branch.nodup rooted reached, fun same => absurd same off, fun e he => ?_⟩
      obtain ⟨edge, held⟩ := (branch.walk rooted reached).1.edge he
      exact Network.edge?_isSome.mp (by simp [held])

/-- A pair with an edge on its route has two clusters, and a way between their centroids. -/
theorem Found.open_of_mem (found : Found engine net clusters cost tree)
    (sound : clusters.Sound net) (within : p.Within clusters.clusterCount) {e : EdgeId}
    (he : e ∈ routeIn clusters tree p) :
    p.origin ≠ p.destination ∧ cutIn clusters tree p = false := by
  constructor
  · intro same
    rw [(found.route sound within).2.1 same] at he
    cases he
  · by_contra cut
    rw [Bool.not_eq_false] at cut
    rw [found.routeIn_cut sound within cut] at he
    cases he

theorem blocksFrom_ok (found : Found engine net clusters cost tree) (sound : clusters.Sound net)
    {i : ClusterId} (hi : i.index < clusters.clusterCount) :
    blocksFrom engine net clusters i = .ok (joinBlocks (clusters.clusters.map fun j =>
      ⟨[routeIn clusters tree ⟨i, j⟩],
        if cutIn clusters tree ⟨i, j⟩ then [⟨i, j⟩] else []⟩)) := by
  have blocks := mapM_eq_map (f := pairBlock clusters (tree i) i) fun j hj =>
    pairBlock_ok (p := ⟨i, j⟩) found sound ⟨hi, Clustering.mem_clusters.mp hj⟩
  rw [blocksFrom, found.search hi]
  simp only [Except.mapError, bind, Except.bind] at blocks ⊢
  rw [blocks]
  rfl

theorem joinBlocks_pairs (routes : OdPair → List EdgeId) (cut : OdPair → Bool)
    (pairs : List OdPair) :
    joinBlocks (pairs.map fun p => ⟨[routes p], if cut p then [p] else []⟩) =
      ⟨pairs.map routes, pairs.filter cut⟩ := by
  induction pairs with
  | nil => rfl
  | cons p pairs ih =>
    simp only [joinBlocks, RouteBlock.mk.injEq] at ih
    by_cases h : cut p = true <;> simp [joinBlocks, h, ih]

theorem joinBlocks_flatMap (origins : List ClusterId) (blocks : ClusterId → List RouteBlock) :
    joinBlocks (origins.map fun i => joinBlocks (blocks i)) =
      joinBlocks (origins.flatMap blocks) := by
  simp [joinBlocks, List.flatMap_map, List.flatMap_assoc]

/-- The blocks of all origins, pair by pair. -/
theorem joinBlocks_all (routes : OdPair → List EdgeId) (cut : OdPair → Bool) :
    joinBlocks (clusters.clusters.map fun i => joinBlocks (clusters.clusters.map fun j =>
      ⟨[routes ⟨i, j⟩], if cut ⟨i, j⟩ then [⟨i, j⟩] else []⟩)) =
        ⟨(OdPair.all clusters.clusterCount).map routes,
          (OdPair.all clusters.clusterCount).filter cut⟩ := by
  rw [joinBlocks_flatMap, ← joinBlocks_pairs, OdPair.all_eq, List.map_flatMap,
    Clustering.clusters]
  simp only [List.map_map, Function.comp_def]

theorem centroids_checked :
    clusters.centroids.toList.forM (fun n => (net.checkNode n).mapError MatrixFault.network) =
      .ok () ↔ ∀ n ∈ clusters.centroids.toList, n.index < net.nodeCount := by
  rw [forM_eq_ok]
  simp only [mapError_eq_ok, Network.checkNode_eq_ok]

/-- An assembly, given what its searches find. -/
theorem ofEngine_ok (found : Found engine net clusters cost tree) (sound : clusters.Sound net) :
    ∃ a, ofEngine engine net clusters = .ok a ∧
      a.matrix = .ofRoutes net.edgeCount clusters.clusterCount (routeIn clusters tree) ∧
      a.survey.unreachable =
        (OdPair.all clusters.clusterCount).filter (cutIn clusters tree) := by
  have nodes : ¬ clusters.nodeCount ≠ net.nodeCount := not_not.mpr sound.nodes
  have checked := centroids_checked.mpr sound.centroids
  have blocks := mapM_eq_map fun i hi => blocksFrom_ok found sound (Clustering.mem_clusters.mp hi)
  have matrix := AssignmentMatrix.ofColumns_routes sound.positive sound.small
    fun p within => (found.route sound within).2
  rw [ofEngine, if_neg nodes, checked]
  simp only [bind, Except.bind, pure, Except.pure] at blocks ⊢
  rw [blocks]
  simp only [joinBlocks_all]
  rw [matrix]
  exact ⟨_, rfl, rfl, rfl⟩

/-- Searches that are lawful from every centroid find trees, and bounded ones where sums never go
down. -/
theorem exists_found {lengths : Network → EdgeId → α} {policy : Policy} (sound : net.Sound)
    (clustering : clusters.Sound net)
    (lawful : ∀ i : ClusterId, i.index < clusters.clusterCount →
      policy.Lawful net (lengths net) (clusters.centroidOf i)) :
    ∃ tree, Found (policy.engineWith lengths) net clusters (policy.costWith (lengths net)) tree ∧
      ∀ i : ClusterId, i.index < clusters.clusterCount →
        CostOrder.Additive net (policy.costWith (lengths net)) (clusters.centroidOf i) →
        (tree i).Bounded net (policy.costWith (lengths net)) := by
  have each (i : ClusterId) : ∃ t : PathTree α, i.index < clusters.clusterCount →
      (policy.engineWith lengths).search net (clusters.centroidOf i) = .ok t ∧
      t.source = clusters.centroidOf i ∧ t.Rooted net (policy.costWith (lengths net)) ∧
      (CostOrder.Additive net (policy.costWith (lengths net)) (clusters.centroidOf i) →
        t.Bounded net (policy.costWith (lengths net))) := by
    by_cases hi : i.index < clusters.clusterCount
    · have home : net.hasNode (clusters.centroidOf i) = true := by
        simpa [Network.hasNode] using centroid_inside clustering hi
      obtain ⟨t, ht⟩ := Policy.search_ok sound (lawful i hi) home
      exact ⟨t, fun _ => ht⟩
    · exact ⟨.start (clusters.centroidOf i) 0, fun h => absurd h hi⟩
  choose tree found using each
  exact ⟨tree, ⟨fun hi => (found _ hi).1, fun hi => (found _ hi).2.1, fun hi => (found _ hi).2.2.1⟩,
    fun i hi => (found i hi).2.2.2⟩

/-- The searches of either policy find trees. -/
theorem exists_found_policy (sound : net.Sound) (clustering : clusters.Sound net)
    (policy : Policy) :
    ∃ tree, Found policy.engine net clusters (policy.costWith net.lengthOf) tree := by
  have lawful (i : ClusterId) (_ : i.index < clusters.clusterCount) :
      policy.Lawful net (Network.lengthOf net) (clusters.centroidOf i) :=
    policy.lawful_lengths sound (clusters.centroidOf i)
  obtain ⟨tree, found, -⟩ := exists_found sound clustering lawful
  rw [← policy.engine_eq] at found
  exact ⟨tree, found⟩

end RoadFlow.Assembly
