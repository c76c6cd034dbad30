import RoadFlow.Cluster.Clustering
import RoadFlow.Proofs.Except
import RoadFlow.Proofs.Network.Construction

/-!
# Clusterings that are built

A clustering built on a network labels each of its nodes, has a cluster at least, and has a node of
the network as the centroid of each (`Clustering.Built.sound`). Labels are numbers of 32 bits, and
no cluster is empty, so clusters have identifiers.
-/

namespace RoadFlow

namespace Network

variable {net : Network} {point : Point}

theorem closer_eq_some {best : Option (NodeId × Float)} {node : Node} {i : Nat}
    {b : NodeId × Float} (h : closer point best node i = some b) : b.1 = ⟨i⟩ ∨ best = some b := by
  unfold closer at h
  split at h
  · cases h
    exact .inl rfl
  · dsimp only at h
    split at h
    · cases h
      exact .inl rfl
    · exact .inr h

theorem nearest?_inside {n : NodeId} (h : net.nearest? point = some n) :
    n.index < net.nodeCount := by
  have inside (nodes : List (Node × Nat)) (best : Option (NodeId × Float))
      (bound : ∀ p ∈ nodes, p.2 < net.nodeCount)
      (held : ∀ b, best = some b → b.1.index < net.nodeCount) :
      ∀ b, nodes.foldl (fun best p => closer point best p.1 p.2) best = some b →
        b.1.index < net.nodeCount := by
    induction nodes generalizing best with
    | nil => exact held
    | cons p nodes ih =>
      refine ih _ (fun q hq => bound q (by simp [hq])) fun b hb => ?_
      rcases closer_eq_some hb with new | old
      · rw [new]
        exact bound p (by simp)
      · exact held b old
  rw [nearest?, Option.map_eq_some_iff] at h
  obtain ⟨b, found, rfl⟩ := h
  refine inside _ none ?_ (by simp) b found
  rintro ⟨node, i⟩ hp
  simpa [nodeCount] using List.snd_lt_of_mem_zipIdx hp

theorem checkNode_eq_ok {n : NodeId} : net.checkNode n = .ok () ↔ n.index < net.nodeCount := by
  rw [checkNode, hasNode]
  by_cases h : n.index < net.nodeCount <;> simp [h]

end Network

variable {net : Network}

/-- Nodes so far are numbered as their labels are, and clusters have the nodes of their labels. -/
structure Grouping.Holds (clusters : Nat) (labels : List Nat) (g : Grouping) : Prop where
  clusterOf : g.clusterOf.toList = labels.map (⟨·⟩)
  count : g.members.size = clusters
  inside : ∀ l ∈ labels, l < clusters
  members : ∀ {c nodes}, g.members[c]? = some nodes →
    ∀ n : NodeId, n ∈ nodes.toList ↔ labels[n.index]? = some c

theorem getElem?_concat {labels : List Nat} {label c i : Nat} :
    (labels ++ [label])[i]? = some c ↔ labels[i]? = some c ∨ i = labels.length ∧ label = c := by
  rw [List.getElem?_append]
  split
  · rename_i inside
    exact ⟨.inl, fun h => h.resolve_right fun last => absurd last.1 inside.ne⟩
  · rename_i beyond
    have none : labels[i]? = none := List.getElem?_eq_none (Nat.le_of_not_lt beyond)
    by_cases last : i = labels.length
    · simp [last]
    · have later : i - labels.length ≠ 0 := by omega
      simp [none, last, later]

namespace Grouping

variable {clusters label : Nat} {labels : List Nat} {g next : Grouping}

theorem Holds.nodes (held : g.Holds clusters labels) : g.clusterOf.size = labels.length := by
  rw [← Array.length_toList, held.clusterOf, List.length_map]

theorem Holds.add (held : g.Holds clusters labels) (h : g.add clusters label = .ok next) :
    next.Holds clusters (labels ++ [label]) := by
  rw [Grouping.add] at h
  split at h
  · cases h
  rename_i inside
  cases h
  refine ⟨by simp [held.clusterOf], by simp [held.count], ?_, ?_⟩
  · intro l hl
    rcases List.mem_append.mp hl with earlier | last
    · exact held.inside l earlier
    · rw [List.mem_singleton.mp last]
      exact Nat.lt_of_not_le inside
  · intro c nodes found n
    rw [Array.getElem?_modify] at found
    rw [getElem?_concat]
    by_cases same : label = c
    · rw [if_pos same, Option.map_eq_some_iff] at found
      obtain ⟨old, found, rfl⟩ := found
      have new : n = ⟨g.clusterOf.size⟩ ↔ n.index = labels.length := by
        rw [← held.nodes]
        exact ⟨congrArg Id.index, congrArg Id.mk⟩
      rw [Array.toList_push, List.mem_append, List.mem_singleton, held.members found, new]
      simp [same]
    · rw [if_neg same] at found
      simp [held.members found, same]

/-- No node in any cluster yet. -/
def blank (clusters : Nat) : Grouping := ⟨#[], Array.replicate clusters #[]⟩

theorem Holds.blank (clusters : Nat) : (Grouping.blank clusters).Holds clusters [] := by
  refine ⟨rfl, by simp [Grouping.blank], nofun, fun {c nodes} found n => ?_⟩
  rw [Grouping.blank, Array.getElem?_replicate] at found
  split at found <;> cases found
  simp

theorem Holds.run (run : labels.foldlM (Grouping.add clusters) (.blank clusters) = .ok g) :
    g.Holds clusters labels := by
  have held : g.Holds clusters ([] ++ labels) :=
    foldlM_invariant (Holds clusters) (.blank clusters) (fun held call => held.add call) run
  rwa [List.nil_append] at held

theorem ofLabels_eq_ok :
    ofLabels net labels clusters = .ok g ↔
      0 < clusters ∧ labels.length = net.nodeCount ∧
        labels.foldlM (Grouping.add clusters) (blank clusters) = .ok g ∧
        ∀ nodes ∈ g.members, nodes ≠ #[] := by
  have filled (g : Grouping) : g.members.toList.findIdx? Array.isEmpty = none ↔
      ∀ nodes ∈ g.members, nodes ≠ #[] := by
    simp [List.findIdx?_eq_none_iff]
  rw [ofLabels, Nat.pos_iff_ne_zero]
  split
  · simp [*]
  split
  · simp [*]
  rename_i positive length
  rw [not_not] at length
  simp only [positive, length, ne_eq, not_false_eq_true, true_and, bind_eq_ok, ← filled]
  constructor
  · rintro ⟨grouped, run, rest⟩
    split at rest
    · cases rest
    rename_i none
    cases rest
    exact ⟨run, none⟩
  · rintro ⟨run, none⟩
    exact ⟨g, run, by rw [none]⟩

theorem ofLabels_ok (h : ofLabels net labels clusters = .ok g) :
    0 < clusters ∧ labels.length = net.nodeCount ∧ g.Holds clusters labels ∧
      ∀ c < clusters, c ∈ labels := by
  obtain ⟨positive, length, run, filled⟩ := ofLabels_eq_ok.mp h
  have held := Holds.run run
  refine ⟨positive, length, held, fun c hc => ?_⟩
  rw [← held.count] at hc
  -- A cluster that is not empty has a node, and the node has its label.
  obtain ⟨n, hn⟩ := List.exists_mem_of_ne_nil g.members[c].toList
    (mt Array.toList_eq_nil_iff.mp (filled _ (Array.getElem_mem hc)))
  exact List.mem_of_getElem? ((held.members (Array.getElem?_eq_getElem hc) n).mp hn)

end Grouping

namespace Clustering

/-- The clusterings of a network that are accepted, from labels of 32 bits. -/
inductive Built (net : Network) (c : Clustering) : Prop
  | ofLabels {labels : List Nat} {clusters : Nat} :
      (∀ l ∈ labels, l < Id.limit) → ofLabels net labels clusters = .ok c → Built net c
  | ofCentroids {labels : List Nat} {centroids : List NodeId} :
      (∀ l ∈ labels, l < Id.limit) → ofCentroids net labels centroids = .ok c → Built net c

/-- Every node has a label, and every cluster a number and a centroid. -/
structure Sound (net : Network) (c : Clustering) : Prop where
  nodes : c.nodeCount = net.nodeCount
  positive : 0 < c.clusterCount
  small : c.clusterCount ≤ Id.limit
  centroids : ∀ n ∈ c.centroids.toList, n.index < net.nodeCount

/-- A clustering, of this network or of another, has as many nodes as this one and centroids among
them. -/
structure Suits (net : Network) (c : Clustering) : Prop where
  nodes : c.nodeCount = net.nodeCount
  centroids : ∀ n ∈ c.centroids.toList, n.index < net.nodeCount

theorem mem_clusters {c : Clustering} {k : ClusterId} :
    k ∈ c.clusters ↔ k.index < c.clusterCount := by
  rcases k with ⟨k⟩
  simp [clusters]

theorem nodup_clusters (c : Clustering) : c.clusters.Nodup :=
  (Id.ascending_range c.clusterCount).nodup

theorem centroidOfNodes?_inside {nodes : Array NodeId} {n : NodeId}
    (h : centroidOfNodes? net nodes = some n) : n.index < net.nodeCount := by
  obtain ⟨point, -, nearest⟩ := Option.bind_eq_some_iff.mp h
  exact Network.nearest?_inside nearest

theorem small_of_labels {labels : List Nat} {clusters : Nat}
    (bits : ∀ l ∈ labels, l < Id.limit) (used : ∀ c < clusters, c ∈ labels) :
    clusters ≤ Id.limit := by
  by_contra large
  have := bits Id.limit (used Id.limit (by omega))
  omega

/-- A clustering by positions groups the nodes, with a node near each cluster as its centroid. -/
theorem ofLabels_ok {c : Clustering} {labels : List Nat} {clusters : Nat}
    (h : ofLabels net labels clusters = .ok c) :
    Grouping.ofLabels net labels clusters = .ok ⟨c.clusterOf, c.members⟩ ∧
      c.centroids.size = clusters ∧ ∀ n ∈ c.centroids.toList, n.index < net.nodeCount := by
  obtain ⟨g, grouped, rest⟩ := bind_eq_ok.mp h
  obtain ⟨found, centroids, rest⟩ := bind_eq_ok.mp rest
  cases rest
  obtain ⟨-, -, held, -⟩ := Grouping.ofLabels_ok grouped
  have length : found.length = clusters := by
    simpa [held.count] using (mapM_eq_ok.mp centroids).length_eq.symm
  refine ⟨grouped, length, ?_⟩
  intro n hn
  obtain ⟨⟨nodes, i⟩, -, chosen⟩ := exists_of_mem_mapM centroids (by simpa using hn)
  simp only at chosen
  split at chosen
  · rename_i m nearest
    cases chosen
    exact centroidOfNodes?_inside nearest
  · cases chosen

/-- A clustering with chosen centroids groups the nodes, and the centroids are among them. -/
theorem ofCentroids_eq_ok {c : Clustering} {labels : List Nat} {centroids : List NodeId} :
    ofCentroids net labels centroids = .ok c ↔
      Grouping.ofLabels net labels centroids.length = .ok ⟨c.clusterOf, c.members⟩ ∧
        c.centroids.toList = centroids ∧ ∀ n ∈ centroids, n.index < net.nodeCount := by
  have checked : centroids.forM (fun n => (net.checkNode n).mapError MatrixFault.network) = .ok () ↔
      ∀ n ∈ centroids, n.index < net.nodeCount := by
    simp only [forM_eq_ok, mapError_eq_ok, Network.checkNode_eq_ok]
  rw [ofCentroids, bind_eq_ok, ← checked]
  constructor
  · rintro ⟨g, grouped, rest⟩
    obtain ⟨_, passed, rest⟩ := bind_eq_ok.mp rest
    cases rest
    exact ⟨grouped, rfl, passed⟩
  · rcases c with ⟨clusterOf, ⟨nodes⟩, members⟩
    rintro ⟨grouped, rfl, passed⟩
    exact ⟨_, grouped, bind_eq_ok.mpr ⟨_, passed, rfl⟩⟩

/-- A clustering that is built groups the nodes by some labels, and has centroids of the network. -/
theorem Built.grouped {c : Clustering} (built : c.Built net) :
    ∃ labels, (∀ l ∈ labels, l < Id.limit) ∧
      Grouping.ofLabels net labels c.clusterCount = .ok ⟨c.clusterOf, c.members⟩ ∧
      ∀ n ∈ c.centroids.toList, n.index < net.nodeCount := by
  cases built with
  | ofLabels bits call =>
    obtain ⟨grouped, rfl, inside⟩ := ofLabels_ok call
    exact ⟨_, bits, grouped, inside⟩
  | ofCentroids bits call =>
    obtain ⟨grouped, rfl, inside⟩ := ofCentroids_eq_ok.mp call
    exact ⟨_, bits, grouped, inside⟩

theorem Built.sound {c : Clustering} (built : c.Built net) : c.Sound net := by
  obtain ⟨labels, bits, grouped, centroids⟩ := built.grouped
  obtain ⟨positive, nodes, held, used⟩ := Grouping.ofLabels_ok grouped
  exact ⟨held.nodes.trans nodes, positive, small_of_labels bits used, centroids⟩

/-- A clustering built on another network is as good as one built on this, if it suits it. -/
theorem Built.sound_of_suits {other : Network} {c : Clustering} (built : c.Built other)
    (suits : c.Suits net) : c.Sound net :=
  ⟨suits.nodes, built.sound.positive, built.sound.small, suits.centroids⟩

/-- Each node of the sample network in a cluster of its own. -/
def sample : Clustering :=
  ⟨#[⟨0⟩, ⟨1⟩, ⟨2⟩], #[⟨0⟩, ⟨1⟩, ⟨2⟩], #[#[⟨0⟩], #[⟨1⟩], #[⟨2⟩]]⟩

theorem sample_built : sample.Built Network.sample :=
  @Built.ofCentroids _ _ [0, 1, 2] [⟨0⟩, ⟨1⟩, ⟨2⟩] (by decide) rfl

end Clustering

end RoadFlow
