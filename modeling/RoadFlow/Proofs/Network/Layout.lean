import Mathlib.Algebra.Order.Ring.Nat
import RoadFlow.Network.Builder

/-!
# The layout of outgoing edges

The counting sort on the sources of the edges gives each node the slice that holds its outgoing
edges in ascending order (`edgesFrom_build`).
-/

namespace RoadFlow

namespace Network

/-- All edges in the order in which they were added. -/
def edgeIds (net : Network) : List EdgeId := (List.range net.edgeCount).map (⟨·⟩)

/-- Whether an edge starts at a node. -/
def leaves (net : Network) (n : NodeId) (e : EdgeId) : Bool :=
  (net.edge? e).any fun edge => edge.source == n

/-- Whether an edge ends at a node. -/
def enters (net : Network) (n : NodeId) (e : EdgeId) : Bool :=
  (net.edge? e).any fun edge => edge.target == n

end Network

namespace Builder

/-- The number of edges whose source lies below a number. -/
def below (edges : Array Edge) (k : Nat) : Nat := edges.toList.countP (·.source.index < k)

/-- The first `i` edges as far as they start at node `k`. -/
def sliceOf (edges : Array Edge) (k i : Nat) : List Nat :=
  (List.range i).filter fun j => (edges[j]?).any (·.source.index = k)

theorem getElem?_foldl_count (l : List Edge) (counts : Array Nat) (k : Nat) :
    (l.foldl (fun counts e => counts.modify (e.source.index + 1) (· + 1)) counts)[k]? =
      counts[k]?.map (· + l.countP (fun e => e.source.index + 1 = k)) := by
  induction l generalizing counts with
  | nil => simp
  | cons e l ih =>
    rw [List.foldl_cons, ih, Array.getElem?_modify, List.countP_cons]
    by_cases h : e.source.index + 1 = k
    · cases counts[k]? <;> simp [h]; omega
    · simp [h]

theorem getElem?_outCounts (n : Nat) (edges : Array Edge) (k : Nat) (hk : k ≤ n) :
    (outCounts n edges)[k]? = some (edges.toList.countP (fun e => e.source.index + 1 = k)) := by
  rw [outCounts, ← Array.foldl_toList, getElem?_foldl_count]
  have : k < n + 1 := by omega
  simp [this]

theorem size_outCounts (n : Nat) (edges : Array Edge) : (outCounts n edges).size = n + 1 := by
  have grow (l : List Edge) (counts : Array Nat) :
      (l.foldl (fun counts e => counts.modify (e.source.index + 1) (· + 1)) counts).size =
        counts.size := by
    induction l generalizing counts with
    | nil => rfl
    | cons e l ih => rw [List.foldl_cons, ih, Array.size_modify]
  rw [outCounts, ← Array.foldl_toList, grow]
  simp

theorem getElem?_foldl_totals (l : List Nat) (totals : Array Nat) (sum k : Nat) :
    (l.foldl (fun (totals, sum) n => (totals.push (sum + n), sum + n)) (totals, sum)).1[k]? =
      if k < totals.size then totals[k]?
      else if k < totals.size + l.length then some (sum + (l.take (k + 1 - totals.size)).sum)
      else none := by
  induction l generalizing totals sum with
  | nil => by_cases h : k < totals.size <;> simp [h]
  | cons n l ih =>
    rw [List.foldl_cons, ih]
    simp only [Array.size_push, List.length_cons]
    by_cases before : k < totals.size
    · rw [if_pos (by omega), if_pos before, Array.getElem?_push_lt before,
        Array.getElem?_eq_getElem before]
    · by_cases here : k = totals.size
      · subst here
        simp
      · have next : k + 1 - totals.size = (k + 1 - (totals.size + 1)) + 1 := by omega
        simp only [before, next, List.take_succ_cons, List.sum_cons, if_false]
        rw [if_neg (by omega), Nat.add_right_comm totals.size 1 l.length, ← Nat.add_assoc,
          ← Nat.add_assoc]

theorem getElem?_runningTotals (counts : Array Nat) (k : Nat) :
    (runningTotals counts)[k]? =
      if k < counts.size then some ((counts.toList.take (k + 1)).sum) else none := by
  rw [runningTotals, ← Array.foldl_toList, getElem?_foldl_totals]
  simp

theorem countP_source_succ (l : List Edge) (k : Nat) :
    l.countP (fun e => decide (e.source.index < k + 1)) =
      l.countP (fun e => decide (e.source.index < k)) +
        l.countP (fun e => decide (e.source.index = k)) := by
  induction l with
  | nil => rfl
  | cons e l ih =>
    simp only [List.countP_cons, ih, decide_eq_true_eq]
    split <;> split <;> split <;> omega

theorem sum_take_outCounts (n : Nat) (edges : Array Edge) (k : Nat) (hk : k ≤ n) :
    ((outCounts n edges).toList.take (k + 1)).sum = below edges k := by
  have entry (j : Nat) (hj : j ≤ n) := getElem?_outCounts n edges j hj
  induction k with
  | zero =>
    have first := entry 0 (by omega)
    rw [List.take_add_one, Array.getElem?_toList, first]
    simp [below]
  | succ k ih =>
    rw [List.take_add_one, List.sum_append, ih (by omega), Array.getElem?_toList,
      entry (k + 1) hk, below, below, countP_source_succ]
    simp

/-- A node's slice starts behind those of all lower nodes. -/
theorem getElem?_outStart (b : Builder) (name : String) (k : Nat) :
    (b.build name).outStart[k]? = if k ≤ b.nodes.size then some (below b.edges k) else none := by
  rw [build, getElem?_runningTotals, size_outCounts]
  by_cases hk : k ≤ b.nodes.size
  · rw [if_pos (by omega), if_pos hk, sum_take_outCounts _ _ _ hk]
  · rw [if_neg (by omega), if_neg hk]

theorem size_outStart (b : Builder) (name : String) :
    (b.build name).outStart.size = b.nodes.size + 1 := by
  have last := getElem?_outStart b name b.nodes.size
  have past := getElem?_outStart b name (b.nodes.size + 1)
  rw [if_pos (Nat.le_refl _)] at last
  rw [if_neg (by omega)] at past
  have := (Array.getElem?_eq_some_iff.mp last).1
  have := Array.getElem?_eq_none_iff.mp past
  omega

/-! ## Slices -/

theorem sliceOf_succ (edges : Array Edge) (k i : Nat) (e : Edge) (he : edges[i]? = some e) :
    sliceOf edges k (i + 1) = sliceOf edges k i ++ if e.source.index = k then [i] else [] := by
  rw [sliceOf, List.range_succ, List.filter_append]
  by_cases h : e.source.index = k <;> simp [sliceOf, he, h]

theorem length_sliceOf (edges : Array Edge) (k i : Nat) (hi : i ≤ edges.size) :
    (sliceOf edges k i).length = (edges.toList.take i).countP (·.source.index = k) := by
  induction i with
  | zero => simp [sliceOf]
  | succ i ih =>
    have he : edges[i]? = some edges[i] := Array.getElem?_eq_getElem (by omega)
    rw [sliceOf_succ edges k i edges[i] he, List.length_append, ih (by omega), List.take_add_one,
      List.countP_append, Array.getElem?_toList, he]
    by_cases h : edges[i].source.index = k <;> simp [h]

theorem below_mono (edges : Array Edge) {k m : Nat} (hk : k ≤ m) :
    below edges k ≤ below edges m := by
  apply List.countP_mono_left
  intro e _ h
  simp only [decide_eq_true_eq] at h ⊢
  omega

/-- The slice of a node ends no later than that of any higher node starts. -/
theorem below_add_length_le (edges : Array Edge) {k m i : Nat} (hi : i ≤ edges.size) (hk : k < m) :
    below edges k + (sliceOf edges k i).length ≤ below edges m := by
  have whole : below edges k + edges.toList.countP (·.source.index = k) = below edges (k + 1) := by
    rw [below, below, countP_source_succ]
  have part : (sliceOf edges k i).length ≤ edges.toList.countP (·.source.index = k) := by
    rw [length_sliceOf edges k i hi]
    exact (List.take_sublist i edges.toList).countP_le
  have rest : below edges (k + 1) ≤ below edges m := below_mono edges hk
  omega

theorem below_le_size (edges : Array Edge) (k : Nat) : below edges k ≤ edges.size := by
  simpa [below] using List.countP_le_length (p := fun e : Edge => decide (e.source.index < k))
    (l := edges.toList)

/-- Each node's slice holds its edges among the first `i`, and its cursor stands behind them. -/
structure Scattered (n : Nat) (edges : Array Edge) (i : Nat) (s : Scatter) : Prop where
  size : s.slots.size = edges.size
  cursor : ∀ k < n, s.cursor[k]? = some (below edges k + (sliceOf edges k i).length)
  slot : ∀ k < n, ∀ r e, (sliceOf edges k i)[r]? = some e →
    s.slots[below edges k + r]? = some ⟨e⟩

/-- The next edge has a slot, at the cursor of its source. -/
theorem Scattered.cursor_lt {n : Nat} {edges : Array Edge} {i : Nat} {s : Scatter} {e : Edge}
    (held : Scattered n edges i s) (he : edges[i]? = some e) (hs : e.source.index < n) :
    s.cursor.getD e.source.index 0 =
        below edges e.source.index + (sliceOf edges e.source.index i).length ∧
      s.cursor.getD e.source.index 0 < edges.size := by
  have hi : i < edges.size := (Array.getElem?_eq_some_iff.mp he).1
  have at_cursor : s.cursor.getD e.source.index 0 =
      below edges e.source.index + (sliceOf edges e.source.index i).length := by
    rw [Array.getD_eq_getD_getElem?, held.cursor _ hs]
    rfl
  have ends := below_add_length_le edges (k := e.source.index) (i := i + 1) (by omega)
    (Nat.lt_add_one _)
  have := below_le_size edges (e.source.index + 1)
  rw [sliceOf_succ edges e.source.index i e he, if_pos rfl, List.length_append,
    List.length_singleton] at ends
  exact ⟨at_cursor, by omega⟩

theorem Scattered.place {n : Nat} {edges : Array Edge} {i : Nat} {s : Scatter} {e : Edge}
    (held : Scattered n edges i s) (he : edges[i]? = some e) (hs : e.source.index < n) :
    Scattered n edges (i + 1) (s.place ⟨i⟩ e.source) := by
  have hi : i < edges.size := (Array.getElem?_eq_some_iff.mp he).1
  obtain ⟨at_cursor, inside⟩ := held.cursor_lt he hs
  have grown := sliceOf_succ edges e.source.index i e he
  refine ⟨by simp [Scatter.place, held.size], ?_, ?_⟩
  · intro k hk
    rw [Scatter.place, Array.getElem?_modify, held.cursor k hk, sliceOf_succ edges k i e he]
    by_cases same : e.source.index = k <;> simp [same, Nat.add_assoc]
  · intro k hk r f hr
    rw [Scatter.place, Array.getElem?_setIfInBounds, at_cursor]
    rw [sliceOf_succ edges k i e he] at hr
    have new_fits (h : e.source.index < k) :=
      below_add_length_le edges (i := i + 1) (by omega) h
    simp only [grown, if_true, List.length_append, List.length_singleton] at new_fits
    by_cases same : e.source.index = k
    · subst same
      rw [if_pos rfl] at hr
      by_cases old : r < (sliceOf edges e.source.index i).length
      · rw [List.getElem?_append_left old] at hr
        rw [if_neg (by omega)]
        exact held.slot _ hk r f hr
      · rw [List.getElem?_append_right (by omega), List.getElem?_singleton] at hr
        have last : r = (sliceOf edges e.source.index i).length := by
          split at hr
          · omega
          · cases hr
        subst last
        rw [at_cursor, ← held.size] at inside
        simp only [Nat.sub_self, if_true, Option.some.injEq] at hr
        subst hr
        simp [inside]
    · rw [if_neg same, List.append_nil] at hr
      have old : r < (sliceOf edges k i).length := (List.getElem?_eq_some_iff.mp hr).1
      -- The place just filled lies in the slice of another node.
      have elsewhere : ¬ below edges e.source.index + (sliceOf edges e.source.index i).length =
          below edges k + r := by
        rcases Nat.lt_or_gt_of_ne same with lower | higher
        · have := new_fits lower
          omega
        · have := below_add_length_le edges (i := i) (by omega) higher
          omega
      rw [if_neg elsewhere]
      exact held.slot k hk r f hr

theorem scattered_run {n : Nat} {edges : Array Edge} {start : Scatter}
    (held : Scattered n edges 0 start)
    (inside : ∀ (i : Nat) (e : Edge), edges[i]? = some e → e.source.index < n) (i : Nat)
    (hi : i ≤ edges.size) :
    Scattered n edges i ((List.range i).foldl (fun s i =>
      match edges[i]? with
      | some e => s.place ⟨i⟩ e.source
      | none => s) start) := by
  induction i with
  | zero => exact held
  | succ i ih =>
    have he : edges[i]? = some edges[i] := Array.getElem?_eq_getElem (by omega)
    rw [List.range_succ, List.foldl_append]
    simp only [List.foldl_cons, List.foldl_nil, he]
    exact (ih (by omega)).place he (inside i _ he)

/-- Before the first edge, whatever the slots hold. -/
theorem scattered_start (b : Builder) (name : String) {slots : Array EdgeId}
    (size : slots.size = b.edges.size) :
    Scattered b.nodes.size b.edges 0 ⟨(b.build name).outStart, slots⟩ := by
  refine ⟨size, ?_, ?_⟩
  · intro k hk
    have start := getElem?_outStart b name k
    rw [if_pos (by omega)] at start
    simpa [sliceOf] using start
  · intro k _ r e hr
    simp [sliceOf] at hr

theorem scattered_build (b : Builder) (name : String)
    (inside : ∀ (i : Nat) (e : Edge), b.edges[i]? = some e → e.source.index < b.nodes.size) :
    ∃ s, Scattered b.nodes.size b.edges b.edges.size s ∧
      (b.build name).outEdges = s.slots :=
  ⟨_, scattered_run (scattered_start b name (by simp)) inside _ (Nat.le_refl _), rfl⟩

/-- The slice of a node ends where the next one starts. -/
theorem below_succ (edges : Array Edge) (k : Nat) :
    below edges (k + 1) = below edges k + (sliceOf edges k edges.size).length := by
  rw [length_sliceOf _ _ _ (Nat.le_refl _), below, below, countP_source_succ,
    List.take_of_length_le (by simp)]

theorem edgesFrom_eq_extract {b : Builder} (name : String) {n : NodeId}
    (hn : n.index < b.nodes.size) :
    (b.build name).edgesFrom n =
      ((b.build name).outEdges.extract (below b.edges n.index)
        (below b.edges (n.index + 1))).toList := by
  have start := getElem?_outStart b name n.index
  have stop := getElem?_outStart b name (n.index + 1)
  rw [if_pos (by omega)] at start stop
  rw [Network.edgesFrom, Array.getD_eq_getD_getElem?, Array.getD_eq_getD_getElem?, start, stop]
  rfl

/-- The edges that leave a node are those that start there, in ascending order. -/
theorem edgesFrom_build (b : Builder) (name : String)
    (inside : ∀ (i : Nat) (e : Edge), b.edges[i]? = some e → e.source.index < b.nodes.size)
    (n : NodeId) :
    (b.build name).edgesFrom n = (b.build name).edgeIds.filter ((b.build name).leaves n) := by
  have slice : (b.build name).edgeIds.filter ((b.build name).leaves n) =
      (sliceOf b.edges n.index b.edges.size).map (⟨·⟩) := by
    rw [Network.edgeIds, List.filter_map]
    congr 1
    apply List.filter_congr
    intro j _
    simp only [Function.comp, Network.leaves, Network.edge?, build]
    cases b.edges[j]? with
    | none => rfl
    | some e =>
      rcases n with ⟨n⟩
      rcases e with ⟨_, ⟨s⟩, _, _⟩
      simp [Id.mk.injEq, Bool.beq_eq_decide_eq]
  rw [slice]
  by_cases hn : n.index < b.nodes.size
  · obtain ⟨s, held, layout⟩ := scattered_build b name inside
    have length := below_succ b.edges n.index
    have ends := below_le_size b.edges (n.index + 1)
    rw [edgesFrom_eq_extract name hn, layout]
    apply List.ext_getElem?
    intro r
    simp only [Array.getElem?_toList, Array.getElem?_extract, List.getElem?_map]
    cases hr : (sliceOf b.edges n.index b.edges.size)[r]? with
    | none =>
      have := List.getElem?_eq_none_iff.mp hr
      rw [if_neg (by omega)]
      rfl
    | some e =>
      have := (List.getElem?_eq_some_iff.mp hr).1
      rw [if_pos (by rw [held.size]; omega), held.slot _ hn r e hr]
      rfl
  · have none_there : sliceOf b.edges n.index b.edges.size = [] := by
      apply List.filter_eq_nil_iff.mpr
      intro j _ hj
      cases he : b.edges[j]? with
      | none => simp [he] at hj
      | some e =>
        have := inside j e he
        simp [he] at hj
        omega
    have past : (b.build name).outStart.getD (n.index + 1) 0 = 0 := by
      rw [Array.getD_eq_getD_getElem?, getElem?_outStart, if_neg (by omega)]
      rfl
    rw [none_there, Network.edgesFrom, past]
    simp

end Builder

end RoadFlow
