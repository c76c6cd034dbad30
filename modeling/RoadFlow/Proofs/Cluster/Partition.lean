import RoadFlow.Proofs.Cluster.Clustering

/-!
# Clusters as a partition

A clustering keeps the cluster of each node, and again the nodes of each cluster. Labels are
accepted if there is one for each node, each is the number of a cluster and no cluster goes without.
Then the two say the same: every node of the network is listed once, under its own cluster, and the
nodes of a cluster stand in ascending order (`Clustering.clusters_partition`).
-/

namespace RoadFlow

variable {net : Network} {labels : List Nat} {clusters : Nat}

namespace Grouping

variable {g next : Grouping} {label : Nat}

/-- Labels by which the nodes of a network can be grouped: one for each node, each the number of a
cluster, and every cluster with a node. -/
structure Usable (net : Network) (labels : List Nat) (clusters : Nat) : Prop where
  positive : 0 < clusters
  nodes : labels.length = net.nodeCount
  inside : ∀ l ∈ labels, l < clusters
  used : ∀ c < clusters, c ∈ labels

/-- The nodes of every cluster stand in ascending order. -/
def Ordered (g : Grouping) : Prop :=
  ∀ (c : Nat) (nodes : Array NodeId), g.members[c]? = some nodes → Id.Ascending nodes.toList

theorem Ordered.blank (clusters : Nat) : (Grouping.blank clusters).Ordered := by
  intro c nodes found
  rw [Grouping.blank, Array.getElem?_replicate] at found
  split at found <;> cases found
  exact List.Pairwise.nil

theorem Ordered.add (ordered : g.Ordered) (held : g.Holds clusters labels)
    (h : g.add clusters label = .ok next) : next.Ordered := by
  rw [Grouping.add] at h
  split at h
  · cases h
  cases h
  intro c nodes found
  rw [Array.getElem?_modify] at found
  split at found
  · obtain ⟨old, place, rfl⟩ := Option.map_eq_some_iff.mp found
    rw [Array.toList_push]
    apply List.pairwise_append.mpr
    refine ⟨ordered c old place, List.pairwise_singleton _ _, ?_⟩
    intro n earlier last new
    -- The nodes listed so far have labels, and the new one comes behind all of these.
    obtain ⟨inside, -⟩ := List.getElem?_eq_some_iff.mp ((held.members place n).mp earlier)
    rw [List.mem_singleton.mp new]
    exact held.nodes ▸ inside
  · exact ordered c nodes found

theorem ofLabels_ordered (h : ofLabels net labels clusters = .ok g) : g.Ordered := by
  obtain ⟨-, -, run, -⟩ := ofLabels_eq_ok.mp h
  have both : g.Holds clusters ([] ++ labels) ∧ g.Ordered := by
    apply foldlM_invariant (fun seen g => g.Holds clusters seen ∧ g.Ordered) _ _ run
    · exact ⟨.blank clusters, .blank clusters⟩
    · intro seen g label next kept call
      exact ⟨kept.1.add call, kept.2.add kept.1 call⟩
  exact both.2

theorem ofLabels_usable (h : ofLabels net labels clusters = .ok g) : Usable net labels clusters := by
  obtain ⟨positive, nodes, held, used⟩ := ofLabels_ok h
  exact ⟨positive, nodes, held.inside, used⟩

theorem exists_foldlM_add (inside : ∀ l ∈ labels, l < clusters) (g : Grouping) :
    ∃ next, labels.foldlM (Grouping.add clusters) g = .ok next := by
  induction labels generalizing g with
  | nil => exact ⟨g, rfl⟩
  | cons label labels ih =>
    rw [List.forall_mem_cons] at inside
    obtain ⟨next, later⟩ := ih inside.2
      ⟨g.clusterOf.push ⟨label⟩, g.members.modify label (·.push ⟨g.clusterOf.size⟩)⟩
    refine ⟨next, ?_⟩
    rw [List.foldlM_cons, Grouping.add, if_neg (Nat.not_le_of_lt inside.1)]
    exact later

theorem exists_ofLabels (usable : Usable net labels clusters) :
    ∃ g, ofLabels net labels clusters = .ok g := by
  obtain ⟨g, run⟩ := exists_foldlM_add usable.inside (.blank clusters)
  have held := Holds.run run
  refine ⟨g, ofLabels_eq_ok.mpr ⟨usable.positive, usable.nodes, run, ?_⟩⟩
  intro nodes listed blank
  obtain ⟨c, place⟩ := Array.mem_iff_getElem?.mp listed
  have inside : c < clusters := held.count ▸ (Array.getElem?_eq_some_iff.mp place).1
  obtain ⟨n, labelled⟩ := List.mem_iff_getElem?.mp (usable.used c inside)
  have member := (held.members place ⟨n⟩).mpr labelled
  rw [blank] at member
  cases member

end Grouping

namespace Clustering

variable {c : Clustering} {centroids : List NodeId}

/-- The cluster of each node is its label, and the clusters list every node of the network once, each
cluster its own nodes in ascending order. Every cluster has nodes, and one centroid among those of
the network. -/
structure Partitions (net : Network) (labels : List Nat) (clusters : Nat) (c : Clustering) :
    Prop where
  nodes : c.nodeCount = net.nodeCount
  count : c.clusterCount = clusters
  lists : c.members.size = clusters
  label (n : NodeId) : (c.clusterOf[n.index]?).map (·.index) = labels[n.index]?
  members {k : ClusterId} : k.index < clusters →
    c.membersOf k ≠ #[] ∧ Id.Ascending (c.membersOf k).toList ∧
      ∀ n : NodeId, n ∈ (c.membersOf k).toList ↔ c.clusterOf[n.index]? = some k
  disjoint {k l : ClusterId} : k.index < clusters → l.index < clusters → k ≠ l →
    (c.membersOf k).toList.Disjoint (c.membersOf l).toList
  covered {n : NodeId} : n.index < net.nodeCount →
    ∃ k : ClusterId, k.index < clusters ∧ n ∈ (c.membersOf k).toList
  centroids {k : ClusterId} : k.index < clusters →
    ∃ n, c.centroids[k.index]? = some n ∧ n.index < net.nodeCount

theorem partitions (grouped : Grouping.ofLabels net labels clusters = .ok ⟨c.clusterOf, c.members⟩)
    (count : c.centroids.size = clusters)
    (inside : ∀ n ∈ c.centroids.toList, n.index < net.nodeCount) :
    c.Partitions net labels clusters := by
  obtain ⟨positive, length, held, used⟩ := Grouping.ofLabels_ok grouped
  have ordered := Grouping.ofLabels_ordered grouped
  obtain ⟨-, -, -, filled⟩ := Grouping.ofLabels_eq_ok.mp grouped
  have place {k : ClusterId} (hk : k.index < clusters) :
      c.members[k.index]? = some (c.membersOf k) := by
    rw [← held.count] at hk
    rw [membersOf, Array.getD_eq_getD_getElem?, Array.getElem?_eq_getElem hk, Option.getD_some]
  have cluster (n : NodeId) : c.clusterOf[n.index]? = labels[n.index]?.map (⟨·⟩) := by
    rw [← Array.getElem?_toList, held.clusterOf, List.getElem?_map]
  have mem {k : ClusterId} (hk : k.index < clusters) (n : NodeId) :
      n ∈ (c.membersOf k).toList ↔ c.clusterOf[n.index]? = some k := by
    rw [held.members (place hk), cluster, Option.map_eq_some_iff]
    constructor
    · intro labelled
      exact ⟨k.index, labelled, rfl⟩
    · rintro ⟨label, labelled, rfl⟩
      exact labelled
  refine ⟨held.nodes.trans length, count, held.count, ?_, ?_, ?_, ?_, ?_⟩
  · intro n
    rw [cluster, Option.map_map]
    exact Option.map_id'
  · intro k hk
    exact ⟨filled _ (Array.mem_of_getElem? (place hk)), ordered _ _ (place hk), mem hk⟩
  · intro k l hk hl different n left right
    rw [mem hk] at left
    rw [mem hl, left] at right
    exact different (Option.some.inj right)
  · intro n hn
    have labelled := List.getElem?_eq_getElem (length.symm ▸ hn)
    have within := held.inside _ (List.mem_of_getElem? labelled)
    refine ⟨⟨labels[n.index]⟩, within, ?_⟩
    rw [mem within, cluster, labelled]
    rfl
  · intro k hk
    rw [← count] at hk
    exact ⟨_, Array.getElem?_eq_getElem hk, inside _ (by simp)⟩

/-! ## Acceptance -/

/-- Only an empty network has no nearest node. -/
theorem exists_nearest? (some_node : 0 < net.nodeCount) (point : Point) :
    ∃ n, net.nearest? point = some n := by
  have kept (nodes : List (Node × Nat)) (best : NodeId × Float) :
      ∃ b, nodes.foldl (fun best p => Network.closer point best p.1 p.2) (some best) = some b := by
    induction nodes generalizing best with
    | nil => exact ⟨best, rfl⟩
    | cons p nodes ih =>
      rw [List.foldl_cons, Network.closer]
      split
      · exact ih _
      · exact ih best
  have first : net.nodes.toList ≠ [] := by
    apply List.ne_nil_of_length_pos
    rwa [Array.length_toList]
  obtain ⟨node, rest, nodes⟩ := List.exists_cons_of_ne_nil first
  rw [Network.nearest?, nodes, List.zipIdx_cons, List.foldl_cons]
  obtain ⟨b, found⟩ := kept (rest.zipIdx (0 + 1)) (⟨0⟩, node.position.squaredDistance point)
  exact ⟨b.1, congrArg (Option.map Prod.fst) found⟩

theorem exists_centroidOfNodes? {nodes : Array NodeId} (filled : nodes ≠ #[])
    (inside : ∀ n ∈ nodes.toList, n.index < net.nodeCount) :
    ∃ n, centroidOfNodes? net nodes = some n := by
  obtain ⟨n, member⟩ := List.exists_mem_of_ne_nil nodes.toList
    (mt Array.toList_eq_nil_iff.mp filled)
  obtain ⟨node, held⟩ : ∃ node, net.nodes[n.index]? = some node :=
    ⟨_, Array.getElem?_eq_getElem (inside n member)⟩
  have point : node.position ∈
      nodes.toList.filterMap fun n => net.nodes[n.index]?.map (·.position) :=
    List.mem_filterMap.mpr ⟨n, member, by rw [held]; rfl⟩
  have some_point : (nodes.toList.filterMap fun n =>
      net.nodes[n.index]?.map (·.position)).isEmpty = false :=
    List.isEmpty_eq_false_iff.mpr (List.ne_nil_of_mem point)
  rw [centroidOfNodes?, Point.centroid?, some_point]
  exact exists_nearest? (Nat.zero_lt_of_lt (inside n member)) _

theorem exists_ofLabels (usable : Grouping.Usable net labels clusters) :
    ∃ c, ofLabels net labels clusters = .ok c := by
  obtain ⟨g, grouped⟩ := Grouping.exists_ofLabels usable
  obtain ⟨-, length, held, -⟩ := Grouping.ofLabels_ok grouped
  obtain ⟨-, -, -, filled⟩ := Grouping.ofLabels_eq_ok.mp grouped
  have chosen : ∀ entry ∈ g.members.toList.zipIdx,
      ∃ n, centroidOfNodes? net entry.1 = some n := by
    rintro ⟨nodes, c⟩ listed
    have place : g.members[c]? = some nodes := by
      simpa using List.mem_zipIdx_iff_getElem?.mp listed
    apply exists_centroidOfNodes? (filled nodes (Array.mem_of_getElem? place))
    intro n member
    rw [← length]
    exact (List.getElem?_eq_some_iff.mp ((held.members place n).mp member)).1
  refine ⟨_, bind_eq_ok.mpr ⟨g, grouped, bind_eq_ok.mpr ⟨_, mapM_eq_map
    (g := fun entry => (centroidOfNodes? net entry.1).getD Id.invalid) ?_, rfl⟩⟩⟩
  intro entry listed
  obtain ⟨n, nearest⟩ := chosen entry listed
  simp only [nearest, Option.getD_some]

/-- Labels give a clustering exactly if they can be used, and with chosen centroids exactly if these
are nodes of the network as well. The clustering is then a partition of the nodes by their labels,
around the centroids that were chosen. -/
theorem clusters_partition (net : Network) (labels : List Nat) :
    (∀ clusters, (∃ c, ofLabels net labels clusters = .ok c) ↔
      Grouping.Usable net labels clusters) ∧
    (∀ clusters c, ofLabels net labels clusters = .ok c → c.Partitions net labels clusters) ∧
    (∀ centroids, (∃ c, ofCentroids net labels centroids = .ok c) ↔
      Grouping.Usable net labels centroids.length ∧ ∀ n ∈ centroids, n.index < net.nodeCount) ∧
    ∀ centroids c, ofCentroids net labels centroids = .ok c →
      c.Partitions net labels centroids.length ∧ c.centroids.toList = centroids := by
  refine ⟨fun clusters => ⟨?_, exists_ofLabels⟩, ?_, fun centroids => ⟨?_, ?_⟩, ?_⟩
  · rintro ⟨c, call⟩
    exact Grouping.ofLabels_usable (ofLabels_ok call).1
  · intro clusters c call
    obtain ⟨grouped, count, inside⟩ := ofLabels_ok call
    exact partitions grouped count inside
  · rintro ⟨c, call⟩
    obtain ⟨grouped, -, inside⟩ := ofCentroids_eq_ok.mp call
    exact ⟨Grouping.ofLabels_usable grouped, inside⟩
  · rintro ⟨usable, inside⟩
    obtain ⟨g, grouped⟩ := Grouping.exists_ofLabels usable
    exact ⟨⟨g.clusterOf, centroids.toArray, g.members⟩,
      ofCentroids_eq_ok.mpr ⟨grouped, rfl, inside⟩⟩
  · intro centroids c call
    obtain ⟨grouped, rfl, inside⟩ := ofCentroids_eq_ok.mp call
    exact ⟨partitions grouped (Array.length_toList).symm inside, rfl⟩

/-- Two clusters, the second with the nodes around the first. -/
theorem clusters_partition_sample :
    ∃ c, ofCentroids Network.sample [1, 0, 1] [⟨1⟩, ⟨2⟩] = .ok c ∧
      c.Partitions Network.sample [1, 0, 1] 2 := by
  obtain ⟨-, -, accepted, parts⟩ := clusters_partition Network.sample [1, 0, 1]
  obtain ⟨c, call⟩ := (accepted [⟨1⟩, ⟨2⟩]).mpr
    ⟨⟨by decide, by decide, by decide, by decide⟩, by decide⟩
  exact ⟨c, call, (parts _ c call).1⟩

end Clustering

end RoadFlow
