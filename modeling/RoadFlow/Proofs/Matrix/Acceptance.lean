import RoadFlow.Proofs.Matrix.Assembly

/-!
# When assemblies succeed

An assembly succeeds exactly if its clustering suits the network, whichever network the clustering
was built on (`assembly_accepts`). The checks made before the searches are then the only ones that
matter: no search, no path and no column is refused later (`Untroubled`). As a block goes into the
slot of its origin, the searches may be run in any order.
-/

namespace RoadFlow

namespace Assembly

variable {α : Type} [PathCost α] {engine : Engine α} {net : Network} {clusters : Clustering}
  {cost : EdgeId → α} {tree : ClusterId → PathTree α} {policy : Policy}

/-! ## Checks before the searches -/

theorem ofEngine_eq :
    ofEngine engine net clusters =
      withBlocks engine.policy net clusters
        (clusters.clusters.mapM (blocksFrom engine net clusters)) :=
  rfl

/-- Unless the clustering suits the network, blocks do not matter. -/
theorem withBlocks_congr {blocks others : Except MatrixFault (List RouteBlock)}
    (same : clusters.Suits net → blocks = others) :
    withBlocks policy net clusters blocks = withBlocks policy net clusters others := by
  rw [withBlocks, withBlocks]
  split
  · rfl
  · rename_i nodes
    cases checked : clusters.centroids.toList.forM
        (fun n => (net.checkNode n).mapError MatrixFault.network) with
    | error fault => rfl
    | ok => rw [same ⟨not_not.mp nodes, centroids_checked.mp checked⟩]

theorem withBlocks_eq_ok {blocks : Except MatrixFault (List RouteBlock)} {a : Assembly}
    (h : withBlocks policy net clusters blocks = .ok a) :
    clusters.Suits net ∧ a.survey.searches = clusters.clusterCount := by
  rw [withBlocks] at h
  split at h
  · cases h
  rename_i nodes
  obtain ⟨_, checked, h⟩ := bind_eq_ok.mp h
  obtain ⟨found, -, h⟩ := bind_eq_ok.mp h
  obtain ⟨matrix, -, h⟩ := bind_eq_ok.mp h
  cases h
  exact ⟨⟨not_not.mp nodes, centroids_checked.mp checked⟩, rfl⟩

/-! ## Checks after the searches -/

/-- Nothing is refused once the searches begin: each finds a tree, whose paths to the centroids are
there or missing, and the columns have the number and the edges that a matrix takes. -/
structure Untroubled (engine : Engine α) (net : Network) (clusters : Clustering) : Prop where
  search : ∀ {i : ClusterId}, i.index < clusters.clusterCount →
    ∃ t, engine.search net (clusters.centroidOf i) = .ok t
  path : ∀ {i j : ClusterId} {t : PathTree α}, i.index < clusters.clusterCount →
    j.index < clusters.clusterCount → engine.search net (clusters.centroidOf i) = .ok t →
    (∃ edges, t.path (clusters.centroidOf j) = .ok edges) ∨
      t.path (clusters.centroidOf j) =
        .error (.noPath (clusters.centroidOf i) (clusters.centroidOf j))
  blocks : ∃ blocks, clusters.clusters.mapM (blocksFrom engine net clusters) = .ok blocks ∧
    (joinBlocks blocks).columns.length = clusters.clusterCount * clusters.clusterCount ∧
    ∀ {c edges}, (joinBlocks blocks).columns[c]? = some edges →
      (∀ e ∈ edges, e.index < net.edgeCount) ∧
      ((OdPair.ofColumn c clusters.clusterCount).isDiagonal = true → edges = [])

theorem Found.untroubled (found : Found engine net clusters cost tree)
    (sound : clusters.Sound net) : Untroubled engine net clusters where
  search hi := ⟨_, found.search hi⟩
  path := by
    intro i j t hi hj searched
    cases (found.search hi).symm.trans searched
    have inside := centroid_inside sound hj
    rw [← (found.rooted hi).nodes] at inside
    by_cases reached : (tree i).isReached (clusters.centroidOf j) = true
    · obtain ⟨edges, path, -⟩ := (found.rooted hi).path_ok reached
      exact .inl ⟨edges, path⟩
    · rw [← found.source hi]
      exact .inr (PathTree.path_of_not_reached inside reached)
  blocks := by
    refine ⟨_, mapM_eq_map fun i hi =>
      blocksFrom_ok found sound (Clustering.mem_clusters.mp hi), ?_, ?_⟩
    · rw [joinBlocks_all, List.length_map, OdPair.length_all]
    · intro c edges place
      rw [joinBlocks_all, List.getElem?_map, Option.map_eq_some_iff] at place
      obtain ⟨p, place, rfl⟩ := place
      have hc : c < clusters.clusterCount * clusters.clusterCount := by
        simpa using (List.getElem?_eq_some_iff.mp place).1
      rw [OdPair.getElem?_all hc] at place
      cases place
      obtain ⟨empty, inside⟩ := (found.route sound (OdPair.ofIndex_within hc)).2
      rw [OdPair.ofColumn_eq hc sound.small]
      exact ⟨inside, fun diagonal => empty (by simpa [OdPair.isDiagonal] using diagonal)⟩

/-! ## Searches in any order -/

section Slots

variable {block : ClusterId → RouteBlock} {done order : List ClusterId}

/-- The slots once the searches from some origins have been run. -/
def slotsOf (clusters : Clustering) (block : ClusterId → RouteBlock) (done : List ClusterId) :
    Array (Option RouteBlock) :=
  (clusters.clusters.map fun i => if i ∈ done then some (block i) else none).toArray

theorem getElem?_slotsOf {k : Nat} (inside : k < clusters.clusterCount) :
    (slotsOf clusters block done)[k]? = some (if ⟨k⟩ ∈ done then some (block ⟨k⟩) else none) := by
  simp [slotsOf, Clustering.clusters, inside]

theorem size_slotsOf : (slotsOf clusters block done).size = clusters.clusterCount := by
  simp [slotsOf, Clustering.clusters]

theorem fillSlot_slotsOf {i : ClusterId}
    (found : blocksFrom engine net clusters i = .ok (block i)) :
    fillSlot engine net clusters (slotsOf clusters block done) i =
      .ok (slotsOf clusters block (done ++ [i])) := by
  refine bind_eq_ok.mpr ⟨block i, found, congrArg Except.ok ?_⟩
  apply Array.ext_getElem?
  intro k
  by_cases inside : k < clusters.clusterCount
  · rw [Array.getElem?_setIfInBounds, getElem?_slotsOf inside, getElem?_slotsOf inside,
      size_slotsOf]
    by_cases same : i.index = k
    · subst same
      simp [inside]
    · have other : ⟨k⟩ ≠ i := fun h => same (congrArg Id.index h.symm)
      simp [same, other]
  · rw [Array.getElem?_eq_none (by simpa [size_slotsOf] using inside),
      Array.getElem?_eq_none (by simpa [size_slotsOf] using inside)]

theorem fillSlots (found : ∀ i ∈ order, blocksFrom engine net clusters i = .ok (block i)) :
    order.foldlM (fillSlot engine net clusters) (slotsOf clusters block done) =
      .ok (slotsOf clusters block (done ++ order)) := by
  induction order generalizing done with
  | nil => simp [pure, Except.pure]
  | cons i order ih =>
    rw [List.foldlM_cons, bind_eq_ok]
    refine ⟨_, fillSlot_slotsOf (found i List.mem_cons_self), ?_⟩
    have rest : order.foldlM (fillSlot engine net clusters) (slotsOf clusters block (done ++ [i])) =
        .ok (slotsOf clusters block (done ++ [i] ++ order)) :=
      ih fun j hj => found j (List.mem_cons_of_mem i hj)
    rwa [List.append_assoc, List.singleton_append] at rest

/-- Once all searches have been run, the slots hold the blocks in the order of their origins. -/
theorem blocksInOrder_eq (perm : order.Perm clusters.clusters)
    (found : ∀ i ∈ clusters.clusters, blocksFrom engine net clusters i = .ok (block i)) :
    blocksInOrder engine net clusters order = .ok (clusters.clusters.map block) := by
  have start : Array.replicate clusters.clusterCount none = slotsOf clusters block [] := by
    apply Array.toList_inj.mp
    simp [slotsOf, Clustering.clusters, Function.comp_def]
  have filled : (slotsOf clusters block order).toList.filterMap id =
      clusters.clusters.map block := by
    rw [slotsOf, List.toList_toArray, List.filterMap_map, ← List.filterMap_eq_map]
    apply List.filterMap_congr
    intro i hi
    simp [perm.mem_iff.mpr hi]
  have run : order.foldlM (fillSlot engine net clusters) (slotsOf clusters block []) =
      .ok (slotsOf clusters block ([] ++ order)) :=
    fillSlots fun i hi => found i (perm.mem_iff.mp hi)
  rw [← start, List.nil_append] at run
  rw [← filled]
  exact bind_eq_ok.mpr ⟨_, run, rfl⟩

end Slots

theorem ofEngineInOrder_eq (clustering : clusters.Suits net → clusters.Sound net)
    (searches : clusters.Suits net → ∃ tree, Found engine net clusters cost tree)
    {order : List ClusterId} (perm : order.Perm clusters.clusters) :
    ofEngineInOrder engine net clusters order = ofEngine engine net clusters := by
  rw [ofEngine_eq]
  apply withBlocks_congr
  intro suits
  obtain ⟨tree, found⟩ := searches suits
  have blocks (i : ClusterId) (hi : i ∈ clusters.clusters) :=
    blocksFrom_ok found (clustering suits) (Clustering.mem_clusters.mp hi)
  rw [blocksInOrder_eq perm blocks, mapM_eq_map blocks]

end Assembly

/-- Assemblies succeed if and only if the clustering suits the network. Nothing is refused once the
searches begin, there is one for each cluster, and their order does not matter. -/
theorem assembly_accepts {net other : Network} (built : net.Built) {clusters : Clustering}
    (clustering : clusters.Built other) (policy : Policy) :
    ((∃ a, Assembly.ofEngine policy.engine net clusters = .ok a) ↔ clusters.Suits net) ∧
    (clusters.Suits net → Assembly.Untroubled policy.engine net clusters) ∧
    (∀ a, Assembly.ofEngine policy.engine net clusters = .ok a →
      a.survey.searches = clusters.clusterCount) ∧
    ∀ order : List ClusterId, order.Perm clusters.clusters →
      Assembly.ofEngineInOrder policy.engine net clusters order =
        Assembly.ofEngine policy.engine net clusters := by
  have searches (suits : clusters.Suits net) :=
    Assembly.exists_found_policy built.sound (clustering.sound_of_suits suits) policy
  refine ⟨⟨?_, ?_⟩, ?_, ?_, ?_⟩
  · rintro ⟨a, assembled⟩
    exact (Assembly.withBlocks_eq_ok assembled).1
  · intro suits
    obtain ⟨tree, found⟩ := searches suits
    obtain ⟨a, assembled, -⟩ := Assembly.ofEngine_ok found (clustering.sound_of_suits suits)
    exact ⟨a, assembled⟩
  · intro suits
    obtain ⟨tree, found⟩ := searches suits
    exact found.untroubled (clustering.sound_of_suits suits)
  · intro a assembled
    exact (Assembly.withBlocks_eq_ok assembled).2
  · intro order perm
    exact Assembly.ofEngineInOrder_eq clustering.sound_of_suits searches perm

/-- The searches of the sample may be run from its last centroid first. -/
theorem assembly_accepts_sample :
    Clustering.sample.Suits Network.sample ∧
    (∃ a, Assembly.ofEngine Policy.length.engine Network.sample Clustering.sample = .ok a) ∧
    Assembly.Untroubled Policy.length.engine Network.sample Clustering.sample ∧
    Assembly.ofEngineInOrder Policy.length.engine Network.sample Clustering.sample
        [⟨2⟩, ⟨0⟩, ⟨1⟩] =
      Assembly.ofEngine Policy.length.engine Network.sample Clustering.sample := by
  obtain ⟨accepts, untroubled, -, anyOrder⟩ :=
    assembly_accepts Network.sample_built Clustering.sample_built .length
  have suits : Clustering.sample.Suits Network.sample := ⟨rfl, by decide⟩
  have perm : [⟨2⟩, ⟨0⟩, ⟨1⟩].Perm Clustering.sample.clusters := by decide
  exact ⟨suits, accepts.mpr suits, untroubled suits, anyOrder _ perm⟩

end RoadFlow
