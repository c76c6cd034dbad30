import Mathlib.Algebra.BigOperators.Ring.Finset
import RoadFlow.Proofs.Matrix.Assembly
import RoadFlow.Proofs.Matrix.Product

/-!
# Conservation of flow

Each column of an assembled matrix is one chain of edges from the centroid of its origin to that of
its destination, so the edge flows that it gives balance at every node: what leaves a node less what
enters it is what starts there less what ends there (`assembly_conserves`).
-/

namespace RoadFlow

/-- The flow that leaves a node less the flow that enters it. -/
noncomputable def Network.outflow (net : Network) (onEdges : Grid ℝ) (v : NodeId) (h : Nat) : ℝ :=
  ∑ e ∈ net.edgeIds.toFinset with net.leaves v e, onEdges.get e.index h -
    ∑ e ∈ net.edgeIds.toFinset with net.enters v e, onEdges.get e.index h

/-- A pair of two clusters that was not found unreachable. -/
def Assembly.Serves (a : Assembly) (p : OdPair) : Prop :=
  p.origin ≠ p.destination ∧ p ∉ a.survey.unreachable

instance (a : Assembly) (p : OdPair) : Decidable (a.Serves p) :=
  inferInstanceAs (Decidable (_ ∧ _))

/-- The flow of the pairs that start at a node less the flow of those that end there. -/
noncomputable def Assembly.supply (a : Assembly) (clusters : Clustering) (flows : Grid ℝ)
    (v : NodeId) (h : Nat) : ℝ :=
  ∑ p ∈ (OdPair.all clusters.clusterCount).toFinset with
      a.Serves p ∧ clusters.centroidOf p.origin = v,
    flows.get (p.column clusters.clusterCount) h -
  ∑ p ∈ (OdPair.all clusters.clusterCount).toFinset with
      a.Serves p ∧ clusters.centroidOf p.destination = v,
    flows.get (p.column clusters.clusterCount) h

namespace Network

variable {net : Network}

/-- One for an edge that leaves a node, minus one for an edge that enters it, zero for a loop. -/
noncomputable def balance (net : Network) (v : NodeId) (e : EdgeId) : ℝ :=
  (if net.leaves v e then 1 else 0) - if net.enters v e then 1 else 0

/-- A walk leaves each node between its ends as often as it enters it. -/
theorem Walk.balance {source target : NodeId} {edges : List EdgeId}
    (walk : net.Walk source target edges) (v : NodeId) :
    (edges.map (net.balance v)).sum =
      (if source = v then 1 else 0) - if target = v then 1 else 0 := by
  induction walk with
  | stay => simp
  | go _ found ih =>
    rw [List.map_append, List.sum_append, ih]
    simp [Network.balance, leaves, enters, found]

theorem outflow_eq (net : Network) (onEdges : Grid ℝ) (v : NodeId) (h : Nat) :
    net.outflow onEdges v h =
      ∑ e ∈ net.edgeIds.toFinset, net.balance v e * onEdges.get e.index h := by
  rw [outflow, Finset.sum_filter, Finset.sum_filter, ← Finset.sum_sub_distrib]
  apply Finset.sum_congr rfl
  intro e _
  rw [Network.balance, sub_mul, ite_mul, ite_mul, one_mul, zero_mul]

end Network

theorem OdPair.nodup_all (z : Nat) : (OdPair.all z).Nodup := by
  apply List.Nodup.of_map (·.column z)
  rw [OdPair.column_all]
  exact List.nodup_range

/-- A sum over columns is one over pairs. -/
theorem OdPair.sum_columns (z : Nat) (f : Nat → ℝ) :
    ((List.range (z * z)).map f).sum = ∑ p ∈ (OdPair.all z).toFinset, f (p.column z) := by
  rw [List.sum_toFinset _ (OdPair.nodup_all z), ← OdPair.column_all, List.map_map]
  rfl

namespace Assembly

variable {α : Type} [PathCost α] {engine : Engine α} {net : Network} {clusters : Clustering}
  {cost : EdgeId → α} {tree : ClusterId → PathTree α} {a : Assembly}

/-- The edges of a column balance like the way from its origin to its destination. -/
theorem Found.column_balance (found : Found engine net clusters cost tree)
    (sound : clusters.Sound net) {p : OdPair} (within : p.Within clusters.clusterCount)
    (v : NodeId) :
    ((Id.sortUnique (routeIn clusters tree p)).map (net.balance v)).sum =
      if p.origin ≠ p.destination ∧ cutIn clusters tree p = false then
        (if clusters.centroidOf p.origin = v then 1 else 0) -
          if clusters.centroidOf p.destination = v then 1 else 0
      else 0 := by
  have perm := Id.sortUnique_perm (found.route sound within).1
  rw [(perm.map (net.balance v)).sum_eq]
  split
  · rename_i served
    obtain ⟨reached, branch⟩ := found.branch within served.1 served.2
    obtain ⟨walk, -⟩ := branch.walk (found.rooted within.1) reached
    rw [walk.balance, found.source within.1]
  · rename_i apart
    have empty : routeIn clusters tree p = [] := by
      by_cases off : p.origin = p.destination
      · exact (found.route sound within).2.1 off
      · have cut : cutIn clusters tree p = true := by
          rw [← Bool.not_eq_false]
          exact fun isOpen => apart ⟨off, isOpen⟩
        exact found.routeIn_cut sound within cut
    simp [empty]

/-- The edges of a column, each weighed by its balance, carry the flow of its pair. -/
theorem Found.sum_column (found : Found engine net clusters cost tree)
    (sound : clusters.Sound net) {p : OdPair} (within : p.Within clusters.clusterCount)
    (v : NodeId) (flow : ℝ) :
    (∑ e ∈ net.edgeIds.toFinset, net.balance v e *
        if e ∈ Id.sortUnique (routeIn clusters tree p) then flow else 0) =
      ((Id.sortUnique (routeIn clusters tree p)).map (net.balance v)).sum * flow := by
  have inside : net.edgeIds.toFinset.filter (· ∈ Id.sortUnique (routeIn clusters tree p)) =
      (Id.sortUnique (routeIn clusters tree p)).toFinset := by
    ext e
    simp only [Finset.mem_filter, List.mem_toFinset, and_iff_right_iff_imp, Id.mem_sortUnique]
    exact fun he => Network.mem_edgeIds.mpr ((found.route sound within).2.2 e he)
  simp only [mul_ite, mul_zero]
  rw [← Finset.sum_filter, inside, List.sum_toFinset _ (Id.ascending_sortUnique _).nodup,
    ← List.sum_map_mul_right]

variable (found : Found engine net clusters cost tree) (sound : clusters.Sound net)
  (matrix : a.matrix = .ofRoutes net.edgeCount clusters.clusterCount (routeIn clusters tree))
  (unreachable : a.survey.unreachable =
    (OdPair.all clusters.clusterCount).filter (cutIn clusters tree))

include matrix in
theorem onEdges_eq {flows onEdges : Grid ℝ} {e : EdgeId} {h : Nat}
    (sum : onEdges.get e.index h = ((a.matrix.columnsOf e).map fun c => flows.get c h).sum) :
    onEdges.get e.index h = ∑ p ∈ (OdPair.all clusters.clusterCount).toFinset,
      if e ∈ Id.sortUnique (routeIn clusters tree p) then
        flows.get (p.column clusters.clusterCount) h
      else 0 := by
  have width : a.matrix.width = clusters.clusterCount * clusters.clusterCount := by
    rw [matrix]
    rfl
  rw [sum, AssignmentMatrix.columnsOf, sum_map_filter, width, OdPair.sum_columns]
  apply Finset.sum_congr rfl
  intro p hp
  have within := OdPair.mem_all.mp (List.mem_toFinset.mp hp)
  have column : a.matrix.column (p.column clusters.clusterCount) =
      Id.sortUnique (routeIn clusters tree p) := by
    rw [matrix]
    exact AssignmentMatrix.column_ofRoutes within
  simp [AssignmentMatrix.marks, column]

include unreachable in
theorem supply_eq {flows : Grid ℝ} (v : NodeId) (h : Nat) :
    a.supply clusters flows v h = ∑ p ∈ (OdPair.all clusters.clusterCount).toFinset,
      (if p.origin ≠ p.destination ∧ cutIn clusters tree p = false then
        (if clusters.centroidOf p.origin = v then 1 else 0) -
          if clusters.centroidOf p.destination = v then 1 else 0
      else 0) * flows.get (p.column clusters.clusterCount) h := by
  rw [supply, Finset.sum_filter, Finset.sum_filter, ← Finset.sum_sub_distrib]
  apply Finset.sum_congr rfl
  intro p hp
  have serves : a.Serves p ↔ p.origin ≠ p.destination ∧ cutIn clusters tree p = false := by
    rw [Serves, unreachable, List.mem_filter, not_and, Bool.not_eq_true]
    have listed := List.mem_toFinset.mp hp
    exact and_congr_right fun _ => ⟨fun h => h listed, fun h _ => h⟩
  by_cases served : a.Serves p
  · rw [if_pos (serves.mp served)]
    simp only [served, true_and, sub_mul, ite_mul, one_mul, zero_mul]
  · rw [if_neg (mt serves.mpr served)]
    simp [served]

include found sound matrix unreachable in
theorem conserves_of_found {flows onEdges : Grid ℝ}
    (sums : ∀ (e : EdgeId) (h : Nat), e.index < a.matrix.edgeCount →
      onEdges.get e.index h = ((a.matrix.columnsOf e).map fun c => flows.get c h).sum)
    (v : NodeId) (h : Nat) : net.outflow onEdges v h = a.supply clusters flows v h := by
  have edgeCount : a.matrix.edgeCount = net.edgeCount := by
    rw [matrix]
    rfl
  have onEdges (e : EdgeId) (he : e ∈ net.edgeIds.toFinset) :=
    onEdges_eq matrix (sums e h (by
      rw [edgeCount]
      exact Network.mem_edgeIds.mp (List.mem_toFinset.mp he)))
  rw [Network.outflow_eq, supply_eq unreachable,
    Finset.sum_congr rfl fun e he => by rw [onEdges e he, Finset.mul_sum], Finset.sum_comm]
  apply Finset.sum_congr rfl
  intro p hp
  have within := OdPair.mem_all.mp (List.mem_toFinset.mp hp)
  rw [found.sum_column sound within, found.column_balance sound within]

end Assembly

/-- Under either policy, with costs rounded as they are, an assembled matrix keeps the balance of
flows at every node. -/
theorem assembly_conserves {net : Network} (built : net.Built) {clusters : Clustering}
    (clustering : clusters.Built net) (policy : Policy) :
    ∃ a, Assembly.ofPolicy net clusters policy = .ok a ∧
      ∀ flows : Grid ℝ, flows.rows = clusters.clusterCount * clusters.clusterCount →
        ∃ onEdges, a.matrix.times flows = .ok onEdges ∧
          ∀ v h, net.outflow onEdges v h = a.supply clusters flows v h := by
  have lawful (i : ClusterId) (_ : i.index < clusters.clusterCount) :
      policy.Lawful net net.lengthOf (clusters.centroidOf i) :=
    policy.lawful_lengths built.sound (clusters.centroidOf i)
  obtain ⟨tree, found, -⟩ := Assembly.exists_found built.sound clustering.sound lawful
  obtain ⟨a, assembled, matrix, unreachable⟩ := Assembly.ofEngine_ok found clustering.sound
  refine ⟨a, ?_, fun flows rows => ?_⟩
  · rw [Assembly.ofPolicy, policy.engine_eq, assembled]
  · have width : flows.rows = a.matrix.width := by
      rw [rows, matrix]
      rfl
    obtain ⟨onEdges, applied, -, -, sums⟩ := AssignmentMatrix.times_ok width
    exact ⟨onEdges, applied, Assembly.conserves_of_found found clustering.sound matrix unreachable
      sums⟩

theorem assembly_conserves_sample :
    ∃ a, Assembly.ofPolicy Network.sample Clustering.sample .length = .ok a ∧
      ∃ onEdges, a.matrix.times (Grid.ofFn 9 1 fun c _ => (c : ℝ)) = .ok onEdges ∧
        ∀ v h, Network.sample.outflow onEdges v h =
          a.supply Clustering.sample (Grid.ofFn 9 1 fun c _ => (c : ℝ)) v h := by
  obtain ⟨a, assembled, conserves⟩ :=
    assembly_conserves Network.sample_built Clustering.sample_built .length
  exact ⟨a, assembled, conserves _ rfl⟩

end RoadFlow
