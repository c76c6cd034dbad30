import Mathlib.Data.List.Lex
import Mathlib.Data.Prod.Lex
import RoadFlow.Proofs.Route.Tree
import RoadFlow.Route.BreadthFirst

/-!
# Fewest-edge searches

Every node reached has a way, the edges of the path found. Nodes are reached in the order of their
ways: fewer edges first, and of as many edges the lower ones first (`standing`). While a node is
visited, nothing reached stands behind its way and one edge more, so an edge that finds its end
already reached has found no better way (`Visiting.follow`). When all nodes reached have been
visited, the tree is rooted and bounded, and no walk stands before the way to its end
(`Inv.way_le`).
-/

namespace RoadFlow

open PathCost

variable {α : Type} [PathCost α]

/-- What a path of so many edges costs when edges are counted. -/
def hopCount : Nat → α
  | 0 => 0
  | k + 1 => hopCount k + 1

theorem walkCost_one (edges : List EdgeId) :
    walkCost (fun _ => (1 : α)) edges = hopCount edges.length := by
  induction edges using List.reverseRecOn with
  | nil => rfl
  | append_singleton edges e ih =>
    rw [walkCost_concat, ih, List.length_append, List.length_singleton, hopCount]

/-- The counts of the edges of walks stay below the mark. -/
structure Counted (α : Type) [PathCost α] (net : Network) (source : NodeId) : Prop where
  finite : ∀ {v a}, net.Attains (fun _ => (1 : α)) source v a → isFinite a = true
  mark : isFinite (unreached : α) = false

theorem Counted.zero_finite {net : Network} {source : NodeId} (law : Counted α net source) :
    isFinite (0 : α) = true := law.finite (.start net _ source)

theorem CostOrder.Additive.counted {net : Network} {source : NodeId}
    (law : CostOrder.Additive net (fun _ => (1 : α)) source) : Counted α net source :=
  ⟨law.finite, law.mark_not_finite⟩

/-- Along a walk, counts never go down. -/
theorem CostOrder.Additive.hopCount_le {net : Network} {source v : NodeId}
    (law : CostOrder.Additive net (fun _ => (1 : α)) source) {edges : List EdgeId}
    (walk : net.Walk source v edges) {k : Nat} (few : k ≤ edges.length) :
    AtMost (hopCount k : α) (hopCount edges.length) ∧
      net.Met (fun _ => (1 : α)) source (hopCount k) := by
  induction walk with
  | stay =>
    have start := Network.Attains.start net (fun _ => (1 : α)) source
    obtain rfl : k = 0 := by simpa using few
    exact ⟨law.atMost_refl start.met, start.met⟩
  | @go edges e edge walk found ih =>
    have here : net.Attains (fun _ => (1 : α)) source edge.source (hopCount edges.length) :=
      ⟨edges, walk, walkCost_one edges⟩
    rw [List.length_append, List.length_singleton] at few ⊢
    rcases Nat.lt_or_ge edges.length k with last | earlier
    · obtain rfl : k = edges.length + 1 := by omega
      exact ⟨law.atMost_refl (here.go found).met, (here.go found).met⟩
    · obtain ⟨bound, met⟩ := ih earlier
      exact ⟨law.atMost_trans met here.met (here.go found).met bound (law.grows here found), met⟩

/-! ## Ways in order -/

section Standing

variable {a b edges : List EdgeId} {e f : EdgeId}

/-- The place of some edges among all lists of edges: shorter lists stand first, and those of one
length in the order of a dictionary. -/
def standing (edges : List EdgeId) : ℕ ×ₗ List ℕ := toLex (edges.length, edges.map (·.index))

theorem standing_lt_iff :
    standing a < standing b ↔ a.length < b.length ∨
      a.length = b.length ∧ a.map (·.index) < b.map (·.index) := Prod.Lex.toLex_lt_toLex

theorem standing_le_iff :
    standing a ≤ standing b ↔ a.length < b.length ∨
      a.length = b.length ∧ a.map (·.index) ≤ b.map (·.index) := Prod.Lex.toLex_le_toLex

theorem standing_injective : Function.Injective standing := by
  intro a b same
  have numbers := congrArg (fun place => (ofLex place).2) same
  exact List.map_injective_iff.mpr Id.index_injective numbers

theorem length_le_of_standing_le (h : standing a ≤ standing b) : a.length ≤ b.length := by
  rcases standing_le_iff.mp h with shorter | ⟨same, -⟩
  · exact shorter.le
  · exact same.le

/-- Of two lists of one length, the lower one stays below whatever follows them. -/
theorem append_lt_append {a b : List ℕ} (h : a < b) (length : a.length = b.length)
    (c d : List ℕ) : a ++ c < b ++ d := by
  rw [← List.lex_lt] at h ⊢
  induction h with
  | nil => cases length
  | rel lower => exact .rel lower
  | cons _ ih => exact .cons (ih (Nat.succ.inj length))

theorem standing_concat_lt (h : standing a < standing b) (e f : EdgeId) :
    standing (a ++ [e]) < standing (b ++ [f]) := by
  rw [standing_lt_iff] at h ⊢
  rw [List.length_append, List.length_append, List.map_append, List.map_append]
  rcases h with shorter | ⟨same, lower⟩
  · exact .inl (Nat.add_lt_add_right shorter 1)
  · exact .inr ⟨congrArg (· + 1) same, append_lt_append lower (by simpa using same) _ _⟩

theorem standing_lt_concat (edges : List EdgeId) (e : EdgeId) :
    standing edges < standing (edges ++ [e]) := by
  rw [standing_lt_iff]
  exact .inl (by simp)

theorem standing_concat_lt_concat (h : e.index < f.index) (edges : List EdgeId) :
    standing (edges ++ [e]) < standing (edges ++ [f]) := by
  rw [standing_lt_iff, List.map_append, List.map_append]
  exact .inr ⟨by simp, List.append_left_lt (.rel h)⟩

theorem standing_concat_le (h : standing a ≤ standing b) (e : EdgeId) :
    standing (a ++ [e]) ≤ standing (b ++ [e]) := by
  rcases h.eq_or_lt with same | before
  · rw [standing_injective same]
  · exact (standing_concat_lt before e e).le

end Standing

namespace BreadthFirst

variable {net : Network} {source here : NodeId} {s : State α} {way : NodeId → List EdgeId}
  {done rest : List NodeId} {todo : List EdgeId} {e : EdgeId} {edge : Edge} {hops : α}

/-! ## Visiting nodes -/

/-- The nodes reached have ways, in ascending order, which are those of the nodes from which they
are entered and one edge more. -/
structure Inv (net : Network) (source : NodeId) (s : State α) (way : NodeId → List EdgeId) :
    Prop where
  nodes : s.tree.nodeCount = net.nodeCount
  entries : s.tree.entry.size = net.nodeCount
  root : s.tree.source = source
  home : source.index < net.nodeCount
  begun : source ∈ s.reached.toList
  origin : way source = []
  nodup : s.reached.toList.Nodup
  reached : ∀ {v}, isFinite (s.tree.costAt v) = true ↔ v ∈ s.reached.toList
  cost : ∀ {v}, v ∈ s.reached.toList → s.tree.costAt v = hopCount (way v).length
  walk : ∀ {v}, v ∈ s.reached.toList → net.Walk source v (way v)
  ordered : s.reached.toList.Pairwise fun u v => standing (way u) < standing (way v)
  parent : ∀ {v}, v ∈ s.reached.toList → v ≠ source →
    ∃ via, s.tree.Parent net (fun _ => 1) v via ∧
      s.reached.toList.idxOf via.node < s.reached.toList.idxOf v ∧
      way v = way via.node ++ [via.edge]
  bare : s.tree.entry? source = none

/-- The edges that leave visited nodes, but for those that are left to do, lead to nodes reached,
and give them no better ways. -/
def Followed (net : Network) (s : State α) (way : NodeId → List EdgeId) (done : List NodeId)
    (todo : List EdgeId) : Prop :=
  ∀ {e edge}, net.edge? e = some edge → edge.source ∈ done → e ∉ todo →
    edge.target ∈ s.reached.toList ∧
      standing (way edge.target) ≤ standing (way edge.source ++ [e])

/-- Whatever edge leaves the nodes of `rest`, it gives no way that stands before those found. -/
def Ahead (s : State α) (way : NodeId → List EdgeId) (rest : List NodeId) : Prop :=
  ∀ {v n}, v ∈ s.reached.toList → n ∈ rest → ∀ e, standing (way v) < standing (way n ++ [e])

/-- While a node is visited, the ways that its edges give are still to come. -/
structure Visiting (net : Network) (source : NodeId) (s : State α) (way : NodeId → List EdgeId)
    (done rest : List NodeId) (here : NodeId) (todo : List EdgeId) : Prop where
  inv : Inv net source s way
  split : s.reached.toList = done ++ rest
  visited : here ∈ done
  next : ∀ {v e}, v ∈ s.reached.toList → e ∈ todo → standing (way v) < standing (way here ++ [e])
  ahead : Ahead s way rest
  followed : Followed net s way done todo

theorem Inv.inside (inv : Inv net source s way) (sound : net.Sound) {v : NodeId}
    (h : v ∈ s.reached.toList) : v.index < net.nodeCount := (inv.walk h).inside sound inv.home

theorem follow_cases (found : net.edge? e = some edge) (here : NodeId) (hops : α) (s : State α) :
    (follow net here hops s e = s ∧ isFinite (s.tree.costAt edge.target) = true) ∨
    (isFinite (s.tree.costAt edge.target) = false ∧
      follow net here hops s e =
        ⟨s.tree.reach edge.target hops ⟨here, e⟩, s.reached.push edge.target⟩) := by
  rw [follow, found]
  simp only
  split
  · rename_i finite
    exact .inl ⟨rfl, finite⟩
  · rename_i mark
    exact .inr ⟨by simpa using mark, rfl⟩

/-- A node not reached before is reached by way of the node visited. -/
theorem Inv.follow (inv : Inv net source s way) (sound : net.Sound)
    (law : Counted α net source) (found : net.edge? e = some edge)
    (leaves : edge.source ∈ s.reached.toList) (new : edge.target ∉ s.reached.toList)
    (next : ∀ {v}, v ∈ s.reached.toList → standing (way v) < standing (way edge.source ++ [e])) :
    Inv net source
      ⟨s.tree.reach edge.target (hopCount ((way edge.source).length + 1)) ⟨edge.source, e⟩,
        s.reached.push edge.target⟩
      (Function.update way edge.target (way edge.source ++ [e])) := by
  have small : edge.target.index < s.tree.nodeCount := by
    rw [inv.nodes]
    exact sound.target_lt found
  have costAt (v : NodeId) := PathTree.costAt_reach small
    (hopCount ((way edge.source).length + 1) : α) ⟨edge.source, e⟩ v
  have entry (v : NodeId) := PathTree.entry?_reach (by rwa [inv.entries, ← inv.nodes])
    (hopCount ((way edge.source).length + 1) : α) ⟨edge.source, e⟩ v
  have other {v : NodeId} (h : v ∈ s.reached.toList) : v ≠ edge.target := fun same => new (same ▸ h)
  have kept {v : NodeId} (h : v ∈ s.reached.toList) :
      Function.update way edge.target (way edge.source ++ [e]) v = way v :=
    Function.update_of_ne (other h) _ _
  have length : (way edge.source ++ [e]).length = (way edge.source).length + 1 := by
    rw [List.length_append, List.length_singleton]
  have further := (inv.walk leaves).go found
  have finite : isFinite (hopCount ((way edge.source).length + 1) : α) = true := by
    apply law.finite (v := edge.target)
    exact ⟨way edge.source ++ [e], further, by rw [walkCost_one, length]⟩
  refine
    { nodes := by simpa using inv.nodes
      entries := by simpa using inv.entries
      root := inv.root
      home := inv.home
      begun := by simp [inv.begun]
      origin := (kept inv.begun).trans inv.origin
      nodup := ?_
      reached := ?_
      cost := ?_
      walk := ?_
      ordered := ?_
      parent := ?_
      bare := ?_ }
  · rw [Array.toList_push, List.nodup_append]
    refine ⟨inv.nodup, by simp, ?_⟩
    rintro a ha b hb rfl
    exact new (List.mem_singleton.mp hb ▸ ha)
  · intro v
    rw [Array.toList_push, List.mem_append, List.mem_singleton, costAt, ← inv.reached]
    by_cases same : v = edge.target
    · simp [same, finite]
    · simp [same]
  · intro v hv
    rw [Array.toList_push, List.mem_append, List.mem_singleton] at hv
    rw [costAt]
    rcases hv with old | rfl
    · rw [if_neg (other old), kept old, inv.cost old]
    · rw [if_pos rfl, Function.update_self, length]
  · intro v hv
    rw [Array.toList_push, List.mem_append, List.mem_singleton] at hv
    rcases hv with old | rfl
    · rw [kept old]
      exact inv.walk old
    · rw [Function.update_self]
      exact further
  · rw [Array.toList_push, List.pairwise_append]
    refine ⟨inv.ordered.imp_of_mem fun ha hb h => ?_, List.pairwise_singleton _ _, ?_⟩
    · rwa [kept ha, kept hb]
    · intro a ha b hb
      rw [kept ha, List.mem_singleton.mp hb, Function.update_self]
      exact next ha
  · intro v hv away
    rw [Array.toList_push, List.mem_append, List.mem_singleton] at hv
    rw [Array.toList_push]
    rcases hv with old | rfl
    · obtain ⟨via, parent, earlier, ways⟩ := inv.parent old away
      have before : via.node ∈ s.reached.toList :=
        inv.reached.mp (PathTree.isReached_iff.mp parent.reached).2
      refine ⟨via, parent.reach small (other old) (other before) _ _, ?_, ?_⟩
      · rwa [List.idxOf_append_of_mem before, List.idxOf_append_of_mem old]
      · rw [kept old, kept before, ways]
    · refine ⟨⟨edge.source, e⟩, ⟨?_, ⟨edge, found, rfl, rfl⟩, ?_, ?_⟩, ?_, ?_⟩
      · rw [entry, if_pos rfl]
      · rw [PathTree.isReached_iff, PathTree.nodeCount_reach, costAt, if_neg (other leaves),
          inv.nodes]
        exact ⟨inv.inside sound leaves, inv.reached.mpr leaves⟩
      · rw [costAt, costAt, if_pos rfl, if_neg (other leaves), inv.cost leaves, hopCount]
      · rw [List.idxOf_append_of_mem leaves, List.idxOf_append_of_notMem new]
        have := List.idxOf_lt_length_iff.mpr leaves
        omega
      · rw [Function.update_self, kept leaves]
  · rw [entry, if_neg (other inv.begun)]
    exact inv.bare

section Counted

variable (sound : net.Sound) (law : Counted α net source)

include sound law

theorem Visiting.follow (visiting : Visiting net source s way done rest here (e :: todo))
    (ascending : Id.Ascending (e :: todo)) (leaves : e ∈ net.edgesFrom here)
    (hops_eq : hops = hopCount ((way here).length + 1)) :
    ∃ way' rest', Visiting net source (follow net here hops s e) way' done rest' here todo ∧
      way' here = way here := by
  have inv := visiting.inv
  obtain ⟨edge, found, rfl⟩ := sound.mem_edgesFrom.mp leaves
  have inDone {v : NodeId} (h : v ∈ done) : v ∈ s.reached.toList := by
    rw [visiting.split]
    exact List.mem_append_left _ h
  have source_reached := inDone visiting.visited
  rcases follow_cases found edge.source hops s with
    ⟨same, finite⟩ | ⟨mark, next⟩
  · rw [same]
    refine ⟨way, rest, ⟨inv, visiting.split, visiting.visited, ?_, visiting.ahead, ?_⟩, rfl⟩
    · exact fun hv hf => visiting.next hv (List.mem_cons_of_mem e hf)
    · intro f other found' settled finished
      by_cases this : f = e
      · subst this
        cases found'.symm.trans found
        have old := inv.reached.mp finite
        exact ⟨old, (visiting.next old List.mem_cons_self).le⟩
      · exact visiting.followed found' settled (by simp [this, finished])
  · have new : edge.target ∉ s.reached.toList := by
      rw [← inv.reached, mark]
      decide
    have kept {v : NodeId} (h : v ∈ s.reached.toList) :
        Function.update way edge.target (way edge.source ++ [e]) v = way v :=
      Function.update_of_ne (fun same => new (by rwa [same] at h)) _ _
    have later {n : NodeId} (h : n ∈ rest) : n ∈ s.reached.toList ∧
        standing (way edge.source) < standing (way n) := by
      have ordered := inv.ordered
      rw [visiting.split, List.pairwise_append] at ordered
      rw [visiting.split]
      exact ⟨List.mem_append_right _ h, ordered.2.2 _ visiting.visited _ h⟩
    have first {v : NodeId} (h : v ∈ s.reached.toList) := visiting.next h List.mem_cons_self
    rw [next, hops_eq]
    refine ⟨Function.update way edge.target (way edge.source ++ [e]), rest ++ [edge.target],
      ⟨inv.follow sound law found source_reached new first, ?_, visiting.visited, ?_, ?_, ?_⟩,
      kept source_reached⟩
    · simp [visiting.split]
    · intro v f hv hf
      rw [Array.toList_push, List.mem_append, List.mem_singleton] at hv
      rw [kept source_reached]
      rcases hv with old | rfl
      · rw [kept old]
        exact visiting.next old (List.mem_cons_of_mem e hf)
      · rw [Function.update_self]
        exact standing_concat_lt_concat ((List.pairwise_cons.mp ascending).1 f hf) _
    · intro v n hv hn f
      rw [Array.toList_push, List.mem_append, List.mem_singleton] at hv
      rw [List.mem_append, List.mem_singleton] at hn
      rcases hv with old | rfl <;> rcases hn with waiting | rfl
      · rw [kept old, kept (later waiting).1]
        exact visiting.ahead old waiting f
      · rw [kept old, Function.update_self]
        exact (first old).trans (standing_lt_concat _ f)
      · rw [kept (later waiting).1, Function.update_self]
        exact standing_concat_lt (later waiting).2 e f
      · rw [Function.update_self]
        exact standing_lt_concat _ f
    · intro f other found' settled finished
      rw [Array.toList_push, List.mem_append, List.mem_singleton, kept (inDone settled)]
      by_cases this : f = e
      · subst this
        cases found'.symm.trans found
        exact ⟨.inr rfl, by rw [Function.update_self]⟩
      · obtain ⟨old, low⟩ := visiting.followed found' settled (by simp [this, finished])
        rw [kept old]
        exact ⟨.inl old, low⟩

theorem Visiting.followAll (visiting : Visiting net source s way done rest here todo)
    (ascending : Id.Ascending todo) (leaves : ∀ e ∈ todo, e ∈ net.edgesFrom here)
    (hops_eq : hops = hopCount ((way here).length + 1)) :
    ∃ way' rest', Visiting net source (todo.foldl (BreadthFirst.follow net here hops) s) way'
      done rest' here [] := by
  induction todo generalizing s way rest with
  | nil => exact ⟨way, rest, visiting⟩
  | cons e todo ih =>
    obtain ⟨way', rest', visiting', same⟩ :=
      visiting.follow sound law ascending (leaves e (by simp)) hops_eq
    exact ih visiting' (List.pairwise_cons.mp ascending).2 (fun f hf => leaves f (by simp [hf]))
      (by rw [same, hops_eq])

/-- Between visits, the nodes of `done` have been visited, and the ways that those of `rest` give
are still to come. -/
theorem Inv.run {fuel : Nat} (inv : Inv net source s way)
    (split : s.reached.toList = done ++ rest) (enough : net.nodeCount ≤ done.length + fuel)
    (ahead : Ahead s way rest) (followed : Followed net s way done []) :
    ∃ way', Inv net source (BreadthFirst.run net fuel done.length s) way' ∧
      Followed net (BreadthFirst.run net fuel done.length s) way'
        (BreadthFirst.run net fuel done.length s).reached.toList [] := by
  induction fuel generalizing s way done rest with
  | zero =>
    have few := Id.length_le_of_nodup inv.nodup fun _ h => inv.inside sound h
    rw [split, List.length_append] at few
    have all : rest = [] := List.eq_nil_of_length_eq_zero (by omega)
    rw [all, List.append_nil] at split
    refine ⟨way, inv, ?_⟩
    rwa [BreadthFirst.run, split]
  | succ fuel ih =>
    have next : s.reached[done.length]? = rest.head? := by
      rw [← Array.getElem?_toList, split, List.getElem?_append_right le_rfl, Nat.sub_self,
        List.head?_eq_getElem?]
    rw [BreadthFirst.run, next]
    cases rest with
    | nil =>
      rw [List.append_nil] at split
      refine ⟨way, inv, ?_⟩
      rwa [List.head?_nil, split]
    | cons here rest =>
      simp only [List.head?_cons]
      have reached : here ∈ s.reached.toList := by simp [split]
      have visiting : Visiting net source s way (done ++ [here]) rest here
          (net.edgesFrom here) := by
        refine ⟨inv, by simp [split], by simp, fun hv _ => ahead hv List.mem_cons_self _,
          fun hv hn => ahead hv (List.mem_cons_of_mem here hn), ?_⟩
        intro e edge found settled left
        rcases List.mem_append.mp settled with old | last
        · exact followed found old List.not_mem_nil
        · exact absurd (sound.mem_edgesFrom.mpr ⟨edge, found, List.mem_singleton.mp last⟩) left
      have hops : s.tree.costAt here + 1 = hopCount ((way here).length + 1) := by
        rw [inv.cost reached, hopCount]
      obtain ⟨way', rest', visited⟩ :=
        visiting.followAll sound law (sound.ascending_edgesFrom here) (fun _ h => h) hops
      have length : (done ++ [here]).length = done.length + 1 := by simp
      rw [← length]
      exact ih visited.inv visited.split (by omega) visited.ahead visited.followed

omit sound in
theorem Inv.start (home : source.index < net.nodeCount) :
    Inv net source (⟨PathTree.start source net.nodeCount, #[source]⟩ : State α) fun _ => [] := by
  have costAt (v : NodeId) :
      (PathTree.start source net.nodeCount : PathTree α).costAt v =
        if v = source then 0 else unreached := PathTree.costAt_start home v
  exact
    { nodes := PathTree.size_cost_start _ _
      entries := PathTree.size_entry_start _ _
      root := rfl
      home := home
      begun := by simp
      origin := rfl
      nodup := by simp
      reached := by
        intro v
        rw [costAt]
        split
        · rename_i same
          simp [same, law.zero_finite]
        · rename_i other
          simp [other, law.mark]
      cost := by
        intro v hv
        rw [costAt, if_pos (by simpa using hv), List.length_nil, hopCount]
      walk := by
        intro v hv
        obtain rfl : v = source := by simpa using hv
        exact .stay
      ordered := by simp
      parent := by
        intro v hv away
        exact absurd (by simpa using hv) away
      bare := PathTree.entry?_start .. }

/-- The tree of a search that has visited all that it has reached. -/
theorem search_visited (home : net.hasNode source = true) :
    ∃ (s : State α) (way : NodeId → List EdgeId), search net source = .ok s.tree ∧
      Inv net source s way ∧ Followed net s way s.reached.toList [] := by
  have inside : source.index < net.nodeCount := by simpa [Network.hasNode] using home
  have split : #[source].toList = [] ++ [source] := rfl
  have enough : net.nodeCount ≤ ([] : List NodeId).length + net.nodeCount := by simp
  obtain ⟨way, inv, followed⟩ := (Inv.start law inside).run sound law split enough
    (fun _ _ e => standing_lt_concat [] e) fun _ h => absurd h List.not_mem_nil
  refine ⟨_, way, ?_, inv, followed⟩
  rw [search, Network.checkNode, if_pos home]
  rfl

/-! ## The tree found -/

theorem Inv.rooted_of_counted (inv : Inv net source s way) : s.tree.Rooted net fun _ => 1 where
  nodes := inv.nodes
  origin := by
    rw [inv.root, PathTree.distance?_eq_some, inv.nodes]
    refine ⟨inv.home, ?_, law.zero_finite⟩
    rw [inv.cost inv.begun, inv.origin, List.length_nil, hopCount]
  ranked := by
    refine ⟨s.reached.toList.idxOf, ?_, ?_⟩
    · intro v reached
      have few := Id.length_le_of_nodup inv.nodup fun _ h => inv.inside sound h
      rw [inv.nodes]
      exact (List.idxOf_lt_length_iff.mpr
        (inv.reached.mp (PathTree.isReached_iff.mp reached).2)).trans_le few
    · intro v reached away
      rw [inv.root] at away
      obtain ⟨via, parent, earlier, -⟩ :=
        inv.parent (inv.reached.mp (PathTree.isReached_iff.mp reached).2) away
      exact ⟨via, parent, earlier⟩

end Counted

/-- The way to a node is the path that the tree has. -/
theorem Inv.branch (inv : Inv net source s way) {v : NodeId} (h : v ∈ s.reached.toList) :
    s.tree.Branch v (way v) := by
  generalize place : s.reached.toList.idxOf v = i
  induction i using Nat.strongRecOn generalizing v with
  | ind i ih =>
    by_cases home : v = source
    · rw [home, inv.origin, ← inv.root]
      exact .root
    · obtain ⟨via, parent, earlier, ways⟩ := inv.parent h home
      have before : via.node ∈ s.reached.toList :=
        inv.reached.mp (PathTree.isReached_iff.mp parent.reached).2
      rw [ways]
      rw [← inv.root] at home
      exact .grow home parent.held (ih _ (place ▸ earlier) before rfl)

/-- No walk stands before the way to its end. -/
theorem Inv.way_le (inv : Inv net source s way)
    (followed : Followed net s way s.reached.toList []) {v : NodeId} {edges : List EdgeId}
    (walk : net.Walk source v edges) :
    v ∈ s.reached.toList ∧ standing (way v) ≤ standing edges := by
  induction walk with
  | stay => exact ⟨inv.begun, by rw [inv.origin]⟩
  | @go edges e edge _ found ih =>
    obtain ⟨reached, low⟩ := ih
    obtain ⟨further, step⟩ := followed found reached List.not_mem_nil
    exact ⟨further, step.trans (standing_concat_le low e)⟩

section Additive

variable (sound : net.Sound) (law : CostOrder.Additive net (fun _ => (1 : α)) source)

include sound law

theorem search_ok (home : net.hasNode source = true) :
    ∃ (s : State α) (way : NodeId → List EdgeId), search net source = .ok s.tree ∧
      Inv net source s way ∧ Followed net s way s.reached.toList [] :=
  search_visited sound law.counted home

theorem Inv.rooted (inv : Inv net source s way) : s.tree.Rooted net fun _ => 1 :=
  inv.rooted_of_counted sound law.counted

theorem Inv.bounded (inv : Inv net source s way)
    (followed : Followed net s way s.reached.toList []) :
    s.tree.Bounded net fun _ => 1 := by
  intro v edges walk
  rw [inv.root] at walk
  obtain ⟨reached, low⟩ := inv.way_le followed walk
  refine ⟨PathTree.isReached_iff.mpr ⟨?_, inv.reached.mpr reached⟩, ?_⟩
  · rw [inv.nodes]
    exact inv.inside sound reached
  · rw [inv.cost reached, walkCost_one]
    exact (law.hopCount_le walk (length_le_of_standing_le low)).1

end Additive

end BreadthFirst

end RoadFlow
