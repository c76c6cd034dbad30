import RoadFlow.Proofs.Matrix.Acceptance
import RoadFlow.Proofs.Route.Paths

/-!
# The columns of one origin

All routes from one cluster come from one tree of paths. So the edges marked in the columns of one
origin, though sorted, form a tree that grows out of its centroid: each node is entered by one edge
at most, and the way back along them ends at the centroid (`columns_form_out_trees`).
-/

namespace RoadFlow

/-- The marked edges form a tree that grows out of its root. No node is entered twice, the root is
not entered, and each marked edge ends a walk of marked edges that begins at the root. -/
structure Network.OutTree (net : Network) (root : NodeId) (marked : EdgeId → Prop) : Prop where
  single : ∀ {e f : EdgeId} {a b : Edge}, marked e → marked f → net.edge? e = some a →
    net.edge? f = some b → a.target = b.target → e = f
  away : ∀ {e edge}, marked e → net.edge? e = some edge → edge.target ≠ root
  noLoop : ∀ {e}, marked e → net.isLoop e = false
  back : ∀ {e}, marked e → ∃ v before, net.Walk root v (before ++ [e]) ∧ ∀ f ∈ before, marked f

/-- The edge is marked in some column of the origin. -/
def AssignmentMatrix.MarkedFrom (m : AssignmentMatrix) (origin : ClusterId) (e : EdgeId) : Prop :=
  ∃ destination : ClusterId,
    destination.index < m.clusterCount ∧ e ∈ m.edgesOf ⟨origin, destination⟩

namespace PathTree

variable {α : Type} [PathCost α] {t : PathTree α} {net : Network} {measure : EdgeId → α}
  {v : NodeId} {edges : List EdgeId} {e : EdgeId}

/-- Some branch to a node reached has the edge. -/
def OnBranch (t : PathTree α) (ends : NodeId → Prop) (e : EdgeId) : Prop :=
  ∃ v edges, ends v ∧ t.isReached v = true ∧ t.Branch v edges ∧ e ∈ edges

/-- An edge of a branch is that by which the tree enters its end, and the edges in front of it are
those of a branch. -/
theorem Ranked.enters {rank : NodeId → Nat} (ranked : t.Ranked net measure rank)
    (branch : t.Branch v edges) (h : t.isReached v = true) (he : e ∈ edges) :
    ∃ n via before, via.edge = e ∧ n ≠ t.source ∧ t.isReached n = true ∧
      t.Parent net measure n via ∧ t.Branch via.node before ∧ before ⊆ edges := by
  induction branch with
  | root => cases he
  | @grow v via edges away held branch ih =>
    obtain ⟨parent, -⟩ := ranked.parent_of_entry h away held
    rcases List.mem_append.mp he with earlier | last
    · obtain ⟨n, via', before, same, away', reached, parent', branch', sub⟩ :=
        ih parent.reached earlier
      exact ⟨n, via', before, same, away', reached, parent', branch',
        List.subset_append_of_subset_left _ sub⟩
    · exact ⟨v, via, edges, (List.mem_singleton.mp last).symm, away, h, parent, branch,
        List.subset_append_left _ _⟩

/-- Whatever branches of a tree are taken, their edges form a tree that grows out of its source. -/
theorem Rooted.outTree (rooted : t.Rooted net measure) (ends : NodeId → Prop) :
    net.OutTree t.source (t.OnBranch ends) := by
  obtain ⟨rank, ranked⟩ := rooted.ranked
  refine ⟨?_, ?_, ?_, ?_⟩
  · rintro e f a b ⟨v, edges, -, reached, branch, he⟩ ⟨w, others, -, reached', branch', hf⟩ found
      found' same
    obtain ⟨n, via, -, rfl, -, -, parent, -⟩ := ranked.enters branch reached he
    obtain ⟨m, via', -, rfl, -, -, parent', -⟩ := ranked.enters branch' reached' hf
    obtain ⟨edge, held, -, target⟩ := parent.edge
    obtain ⟨edge', held', -, target'⟩ := parent'.edge
    cases held.symm.trans found
    cases held'.symm.trans found'
    have node : n = m := by rw [← target, ← target', same]
    rw [node] at parent
    cases parent.held.symm.trans parent'.held
    rfl
  · rintro e edge ⟨v, edges, -, reached, branch, he⟩ found
    obtain ⟨n, via, -, rfl, away, -, parent, -⟩ := ranked.enters branch reached he
    obtain ⟨edge', held, -, target⟩ := parent.edge
    cases held.symm.trans found
    rwa [target]
  · rintro e ⟨v, edges, -, reached, branch, he⟩
    exact ranked.noLoop branch reached e he
  · rintro e ⟨v, edges, taken, reached, branch, he⟩
    obtain ⟨n, via, before, rfl, away, reached', parent, branch', sub⟩ :=
      ranked.enters branch reached he
    have walk := (Branch.grow away parent.held branch').walk rooted reached'
    exact ⟨n, before, walk.1, fun f hf => ⟨v, edges, taken, reached, branch, sub hf⟩⟩

end PathTree

namespace Assembly

variable {α : Type} [PathCost α] {engine : Engine α} {net : Network} {clusters : Clustering}
  {cost : EdgeId → α} {tree : ClusterId → PathTree α}

/-- The centroid of some other cluster. -/
def IsGoal (clusters : Clustering) (origin : ClusterId) (v : NodeId) : Prop :=
  ∃ j : ClusterId, j.index < clusters.clusterCount ∧ origin ≠ j ∧ clusters.centroidOf j = v

/-- An edge is on a route from an origin if it is on a branch of its tree to another centroid. -/
theorem Found.mem_routeIn_iff (found : Found engine net clusters cost tree)
    (sound : clusters.Sound net) {i : ClusterId} (hi : i.index < clusters.clusterCount)
    {e : EdgeId} :
    (∃ j : ClusterId, j.index < clusters.clusterCount ∧ e ∈ routeIn clusters tree ⟨i, j⟩) ↔
      (tree i).OnBranch (IsGoal clusters i) e := by
  constructor
  · rintro ⟨j, hj, he⟩
    have within : OdPair.Within ⟨i, j⟩ clusters.clusterCount := ⟨hi, hj⟩
    obtain ⟨off, isOpen⟩ := found.open_of_mem sound within he
    obtain ⟨reached, branch⟩ := found.branch within off isOpen
    exact ⟨_, _, ⟨j, hj, off, rfl⟩, reached, branch, he⟩
  · rintro ⟨_, edges, ⟨j, hj, off, rfl⟩, reached, branch, he⟩
    have within : OdPair.Within ⟨i, j⟩ clusters.clusterCount := ⟨hi, hj⟩
    have isOpen : cutIn clusters tree ⟨i, j⟩ = false := by simp [cutIn, reached]
    obtain ⟨-, branch'⟩ := found.branch within off isOpen
    rw [branch.unique branch'] at he
    exact ⟨j, hj, he⟩

theorem Found.outTree (found : Found engine net clusters cost tree) (sound : clusters.Sound net)
    {i : ClusterId} (hi : i.index < clusters.clusterCount) :
    net.OutTree (clusters.centroidOf i)
      ((AssignmentMatrix.ofRoutes net.edgeCount clusters.clusterCount
        (routeIn clusters tree)).MarkedFrom i) := by
  have marked : (AssignmentMatrix.ofRoutes net.edgeCount clusters.clusterCount
      (routeIn clusters tree)).MarkedFrom i = (tree i).OnBranch (IsGoal clusters i) := by
    funext e
    apply propext
    rw [← found.mem_routeIn_iff sound hi]
    apply exists_congr
    intro j
    apply and_congr_right
    intro hj
    rw [AssignmentMatrix.edgesOf_ofRoutes ⟨hi, hj⟩, Id.mem_sortUnique]
  rw [marked, ← found.source hi]
  exact (found.rooted hi).outTree _

end Assembly

/-- For each origin, the edges marked in all of its columns form a tree that grows out of its
centroid. -/
theorem columns_form_out_trees {net other : Network} (built : net.Built) {clusters : Clustering}
    (clustering : clusters.Built other) (suits : clusters.Suits net) (policy : Policy) :
    ∃ a, Assembly.ofPolicy net clusters policy = .ok a ∧
      ∀ i : ClusterId, i.index < clusters.clusterCount →
        net.OutTree (clusters.centroidOf i) (a.matrix.MarkedFrom i) := by
  have sound := clustering.sound_of_suits suits
  obtain ⟨tree, found⟩ := Assembly.exists_found_policy built.sound sound policy
  obtain ⟨a, assembled, matrix, -⟩ := Assembly.ofEngine_ok found sound
  refine ⟨a, assembled, fun i hi => ?_⟩
  rw [matrix]
  exact found.outTree sound hi

theorem columns_form_out_trees_sample :
    ∃ a, Assembly.ofPolicy Network.sample Clustering.sample .hops = .ok a ∧
      ∀ i : ClusterId, i.index < 3 →
        Network.sample.OutTree (Clustering.sample.centroidOf i) (a.matrix.MarkedFrom i) :=
  columns_form_out_trees Network.sample_built Clustering.sample_built ⟨rfl, by decide⟩ .hops

end RoadFlow
