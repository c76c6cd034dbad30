import RoadFlow.Proofs.Id
import RoadFlow.Proofs.Route.Walk
import RoadFlow.Route.Tree

/-!
# Trees of paths

A tree is rooted when its entries lead every node that it has reached back to its source, each step
to a node of lower rank. Its paths are then walks that repeat no edge and cost what the tree says
(`Rooted.path_ok`, `Branch.walk`, `Branch.nodup`).
-/

namespace RoadFlow.PathTree

open PathCost

variable {α : Type} {t : PathTree α} {v n : NodeId} {edges : List EdgeId}

/-! ## Entries and costs -/

@[simp] theorem source_reach (cost : α) (via : Entry) : (t.reach n cost via).source = t.source :=
  rfl

@[simp] theorem size_cost_reach (cost : α) (via : Entry) :
    (t.reach n cost via).cost.size = t.cost.size := by simp [reach]

@[simp] theorem size_entry_reach (cost : α) (via : Entry) :
    (t.reach n cost via).entry.size = t.entry.size := by simp [reach]

theorem entry?_reach (inside : n.index < t.entry.size) (cost : α) (via : Entry) (v : NodeId) :
    PathTree.entry? (t.reach n cost via) v = if v = n then some via else t.entry? v := by
  rw [ entry?, reach, Array.getElem?_setIfInBounds]
  by_cases same : v = n
  · simp [same, inside]
  · have := Id.index_ne (Ne.symm same)
    simp [this, same, entry?]

/-- Reaching a node changes nothing about the others. -/
theorem entry?_reach_of_ne (other : v ≠ n) (cost : α) (via : Entry) :
    PathTree.entry? (t.reach n cost via) v = t.entry? v := by
  rw [ entry?, reach, Array.getElem?_setIfInBounds_ne (Id.index_ne other.symm), entry?]

@[simp] theorem nodeCount_reach (cost : α) (via : Entry) :
    (t.reach n cost via).nodeCount = t.nodeCount := size_cost_reach cost via

variable [PathCost α] {net : Network} {measure : EdgeId → α}

theorem costAt_reach (inside : n.index < t.cost.size) (cost : α) (via : Entry) (v : NodeId) :
    (t.reach n cost via).costAt v = if v = n then cost else t.costAt v := by
  rw [costAt, reach, Array.getD_eq_getD_getElem?, Array.getElem?_setIfInBounds]
  by_cases same : v = n
  · simp [same, inside]
  · have := Id.index_ne (Ne.symm same)
    simp [this, same, costAt]

theorem costAt_reach_of_ne (other : v ≠ n) (cost : α) (via : Entry) :
    (t.reach n cost via).costAt v = t.costAt v := by
  rw [costAt, reach, Array.getD_eq_getD_getElem?,
    Array.getElem?_setIfInBounds_ne (Id.index_ne other.symm), ← Array.getD_eq_getD_getElem?, costAt]

@[simp] theorem source_start (source : NodeId) (count : Nat) :
    (start source count : PathTree α).source = source := rfl

@[simp] theorem size_cost_start (source : NodeId) (count : Nat) :
    (start source count : PathTree α).cost.size = count := by simp [start]

@[simp] theorem size_entry_start (source : NodeId) (count : Nat) :
    (start source count : PathTree α).entry.size = count := by simp [start]

@[simp] theorem entry?_start (source v : NodeId) (count : Nat) :
    PathTree.entry? (start source count : PathTree α) v = none := by
  by_cases small : v.index < count <;> simp [ entry?, start, small]

theorem costAt_start {source : NodeId} {count : Nat} (inside : source.index < count) (v : NodeId) :
    (start source count : PathTree α).costAt v = if v = source then 0 else unreached := by
  rw [costAt, start, Array.getD_eq_getD_getElem?, Array.getElem?_setIfInBounds]
  by_cases same : v = source
  · simp [same, inside]
  · have := Id.index_ne (Ne.symm same)
    by_cases small : v.index < count <;> simp [this, same, small]

theorem distance?_eq_some {d : α} :
    t.distance? v = some d ↔ v.index < t.nodeCount ∧ t.costAt v = d ∧ isFinite d = true := by
  rw [distance?, Option.filter_eq_some_iff, costAt, Array.getD_eq_getD_getElem?, nodeCount]
  constructor
  · rintro ⟨found, finite⟩
    refine ⟨(Array.getElem?_eq_some_iff.mp found).1, ?_, finite⟩
    rw [found]
    rfl
  · rintro ⟨small, rfl, finite⟩
    refine ⟨?_, finite⟩
    rw [Array.getElem?_eq_getElem small]
    rfl

theorem isReached_iff :
    t.isReached v = true ↔ v.index < t.nodeCount ∧ isFinite (t.costAt v) = true := by
  rw [isReached, Option.isSome_iff_exists]
  simp only [distance?_eq_some]
  constructor
  · rintro ⟨_, small, rfl, finite⟩
    exact ⟨small, finite⟩
  · rintro ⟨small, finite⟩
    exact ⟨_, small, rfl, finite⟩

/-! ## Rooted trees -/

/-- The tree enters a node along an edge from a node that it has reached. -/
structure Parent (t : PathTree α) (net : Network) (measure : EdgeId → α) (v : NodeId)
    (via : Entry) : Prop where
  held : t.entry? v = some via
  edge : ∃ edge, net.edge? via.edge = some edge ∧ edge.source = via.node ∧ edge.target = v
  reached : t.isReached via.node = true
  cost : t.costAt v = t.costAt via.node + measure via.edge

/-- Reaching another node keeps how a node is entered. -/
theorem Parent.reach {via : Entry} (parent : t.Parent net measure v via)
    (inside : n.index < t.nodeCount) (other : v ≠ n) (before : via.node ≠ n)
    (cost : α) (here : Entry) : (t.reach n cost here).Parent net measure v via := by
  obtain ⟨held, edge, reached, sum⟩ := parent
  refine ⟨?_, edge, ?_, ?_⟩
  · rw [ entry?, PathTree.reach, Array.getElem?_setIfInBounds_ne]
    · exact held
    · exact Id.index_ne other.symm
  · rw [isReached_iff] at reached ⊢
    rw [costAt_reach inside, if_neg before]
    exact ⟨by simpa using reached.1, reached.2⟩
  · rw [costAt_reach inside, costAt_reach inside, if_neg other, if_neg before, sum]

/-- The rank of every reached node is a number below the number of nodes, and falls on the way back
to the source. -/
structure Ranked (t : PathTree α) (net : Network) (measure : EdgeId → α) (rank : NodeId → Nat) :
    Prop where
  small : ∀ {v}, t.isReached v = true → rank v < t.nodeCount
  parent : ∀ {v}, t.isReached v = true → v ≠ t.source →
    ∃ via, t.Parent net measure v via ∧ rank via.node < rank v

structure Rooted (t : PathTree α) (net : Network) (measure : EdgeId → α) : Prop where
  nodes : t.nodeCount = net.nodeCount
  origin : t.distance? t.source = some 0
  ranked : ∃ rank, t.Ranked net measure rank

/-- The edges by which the entries of a tree lead from its source to a node. -/
inductive Branch (t : PathTree α) : NodeId → List EdgeId → Prop
  | root : Branch t t.source []
  | grow {v : NodeId} {via : Entry} {edges : List EdgeId} :
      v ≠ t.source → t.entry? v = some via → Branch t via.node edges →
      Branch t v (edges ++ [via.edge])

omit [PathCost α] in
theorem Branch.unique {other : List EdgeId} (h : t.Branch v edges) (h' : t.Branch v other) :
    edges = other := by
  induction h generalizing other with
  | root =>
    cases h' with
    | root => rfl
    | grow away _ _ => exact absurd rfl away
  | grow away held _ ih =>
    cases h' with
    | root => exact absurd rfl away
    | grow _ held' branch =>
      cases held.symm.trans held'
      rw [ih branch]

omit [PathCost α] in
theorem climb_eq (h : t.Branch v edges) {fuel : Nat} (enough : edges.length < fuel)
    (tail : List EdgeId) : t.climb fuel v tail = edges ++ tail := by
  induction h generalizing fuel tail with
  | root =>
    obtain ⟨fuel, rfl⟩ := Nat.exists_eq_add_of_lt enough
    simp [climb]
  | grow away held _ ih =>
    rw [List.length_append, List.length_singleton] at enough
    obtain ⟨fuel, rfl⟩ : ∃ m, fuel = m + 1 := ⟨fuel - 1, by omega⟩
    rw [climb, if_neg away, held]
    simp only
    rw [ih (by omega)]
    simp

theorem Ranked.branch {rank : NodeId → Nat} (ranked : t.Ranked net measure rank)
    (h : t.isReached v = true) : ∃ edges, t.Branch v edges ∧ edges.length ≤ rank v := by
  generalize hr : rank v = r
  induction r using Nat.strongRecOn generalizing v with
  | ind r ih =>
    by_cases home : v = t.source
    · subst home
      exact ⟨[], .root, Nat.zero_le _⟩
    · obtain ⟨via, parent, lower⟩ := ranked.parent h home
      obtain ⟨edges, branch, short⟩ := ih (rank via.node) (by omega) parent.reached rfl
      refine ⟨edges ++ [via.edge], .grow home parent.held branch, ?_⟩
      rw [List.length_append, List.length_singleton]
      omega

theorem pathInto_of_outside (outside : t.nodeCount ≤ v.index) (buffer : List EdgeId) :
    (t.pathInto v).run buffer = (.error (.noSuchNode v t.nodeCount), []) := by
  simp only [pathInto, if_pos outside]
  rfl

theorem pathInto_of_not_reached (inside : v.index < t.nodeCount) (h : ¬ t.isReached v = true)
    (buffer : List EdgeId) :
    (t.pathInto v).run buffer = (.error (.noPath t.source v), []) := by
  have small : ¬ t.nodeCount ≤ v.index := by omega
  have cut : (!t.isReached v) = true := by simpa using h
  simp only [pathInto, if_neg small, if_pos cut]
  rfl

/-- A path follows the entries of its tree. -/
theorem Rooted.pathInto_ok (rooted : t.Rooted net measure) (h : t.isReached v = true) :
    ∃ edges, t.Branch v edges ∧ ∀ buffer, (t.pathInto v).run buffer = (.ok (), edges) := by
  obtain ⟨rank, ranked⟩ := rooted.ranked
  obtain ⟨edges, branch, short⟩ := ranked.branch h
  have enough := ranked.small h
  have small : ¬ t.nodeCount ≤ v.index := by
    have := (isReached_iff.mp h).1
    omega
  have here : ¬ (!t.isReached v) = true := by simp [h]
  refine ⟨edges, branch, fun buffer => ?_⟩
  have climbed : t.climb t.nodeCount v [] = edges := by
    rw [climb_eq branch (by omega), List.append_nil]
  simp only [pathInto, if_neg small, if_neg here]
  rw [← climbed]
  rfl

theorem Rooted.path_ok (rooted : t.Rooted net measure) (h : t.isReached v = true) :
    ∃ edges, t.path v = .ok edges ∧ t.Branch v edges := by
  obtain ⟨edges, branch, into⟩ := rooted.pathInto_ok h
  refine ⟨edges, ?_, branch⟩
  rw [path, into]
  rfl

theorem path_of_not_reached (inside : v.index < t.nodeCount) (h : ¬ t.isReached v = true) :
    t.path v = .error (.noPath t.source v) := by
  rw [path, pathInto_of_not_reached inside h]
  rfl

theorem path_of_outside (outside : t.nodeCount ≤ v.index) :
    t.path v = .error (.noSuchNode v t.nodeCount) := by
  rw [path, pathInto_of_outside outside]
  rfl

theorem Ranked.parent_of_entry {rank : NodeId → Nat} (ranked : t.Ranked net measure rank)
    (h : t.isReached v = true) (away : v ≠ t.source) {via : Entry} (held : t.entry? v = some via) :
    t.Parent net measure v via ∧ rank via.node < rank v := by
  obtain ⟨other, parent, lower⟩ := ranked.parent h away
  cases held.symm.trans parent.held
  exact ⟨parent, lower⟩

/-- A branch is a walk from the source, at the cost that the tree holds. -/
theorem Branch.walk (branch : t.Branch v edges) (rooted : t.Rooted net measure)
    (h : t.isReached v = true) :
    net.Walk t.source v edges ∧ walkCost measure edges = t.costAt v := by
  obtain ⟨rank, ranked⟩ := rooted.ranked
  induction branch with
  | root => exact ⟨.stay, (distance?_eq_some.mp rooted.origin).2.1.symm⟩
  | grow away held _ ih =>
    obtain ⟨parent, _⟩ := ranked.parent_of_entry h away held
    obtain ⟨walk, cost⟩ := ih parent.reached
    obtain ⟨edge, found, source, target⟩ := parent.edge
    rw [← source] at walk
    refine ⟨?_, by rw [walkCost_concat, cost, parent.cost]⟩
    rw [← target]
    exact walk.go found

theorem Ranked.rank_le {rank : NodeId → Nat} (ranked : t.Ranked net measure rank)
    (branch : t.Branch v edges) (h : t.isReached v = true) {e : EdgeId} (he : e ∈ edges) :
    ∃ edge, net.edge? e = some edge ∧ rank edge.target ≤ rank v := by
  induction branch with
  | root => cases he
  | grow away held _ ih =>
    obtain ⟨parent, lower⟩ := ranked.parent_of_entry h away held
    rcases List.mem_append.mp he with earlier | last
    · obtain ⟨edge, found, low⟩ := ih parent.reached earlier
      exact ⟨edge, found, by omega⟩
    · obtain ⟨edge, found, _, target⟩ := parent.edge
      rw [List.mem_singleton.mp last]
      exact ⟨edge, found, by rw [target]⟩

/-- A branch takes no edge twice. -/
theorem Branch.nodup (branch : t.Branch v edges) (rooted : t.Rooted net measure)
    (h : t.isReached v = true) : edges.Nodup := by
  obtain ⟨rank, ranked⟩ := rooted.ranked
  induction branch with
  | root => exact List.nodup_nil
  | grow away held branch ih =>
    obtain ⟨parent, lower⟩ := ranked.parent_of_entry h away held
    obtain ⟨edge, found, _, target⟩ := parent.edge
    refine List.nodup_append.mpr ⟨ih parent.reached, by simp, ?_⟩
    intro e earlier last here same
    rw [same, List.mem_singleton.mp here] at earlier
    obtain ⟨again, found', low⟩ := ranked.rank_le branch parent.reached earlier
    cases found.symm.trans found'
    rw [target] at low
    omega

/-! ## Trees of shortest paths -/

/-- The tree has reached the end of every walk from its source, at no greater cost. -/
def Bounded (t : PathTree α) (net : Network) (measure : EdgeId → α) : Prop :=
  ∀ ⦃v edges⦄, net.Walk t.source v edges →
    t.isReached v = true ∧ AtMost (t.costAt v) (walkCost measure edges)

theorem Rooted.attains (rooted : t.Rooted net measure) (h : t.isReached v = true) :
    net.Attains measure t.source v (t.costAt v) := by
  obtain ⟨edges, _, branch⟩ := rooted.path_ok h
  exact ⟨edges, branch.walk rooted h⟩

end RoadFlow.PathTree
