import RoadFlow.Proofs.Network.Construction

/-!
# Outgoing edges in one array

The slices of the nodes follow one another in the array of outgoing edges, from the first entry to
the last, and every edge stands in it once. It is filled in place: edges are counted, the counts
added up, and each edge put where the cursor of its source points. None of these accesses is out of
range and no slot stays empty (`Builder.layOut?_eq`), so that what is laid out is right
(`Builder.layout_correct`).
-/

namespace RoadFlow

namespace Builder

/-! ## Arrays with every access checked -/

/-- An array with one entry changed, if it has the entry. -/
def modify? {α : Type} (xs : Array α) (i : Nat) (f : α → α) : Option (Array α) :=
  if i < xs.size then some (xs.modify i f) else none

/-- For each node, one place behind it, the number of edges that leave it. -/
def outCounts? (nodeCount : Nat) (edges : Array Edge) : Option (Array Nat) :=
  edges.toList.foldlM (fun counts e => modify? counts (e.source.index + 1) (· + 1))
    (Array.replicate (nodeCount + 1) 0)

/-- Adds to each of the next `n` entries the one before it. -/
def addUp? (n : Nat) (counts : Array Nat) : Option (Array Nat) :=
  (List.range n).foldlM (fun totals i => do
    let before ← totals[i]?
    modify? totals (i + 1) (· + before)) counts

/-- Slices under way, of which some slots are empty. -/
structure Slots where
  cursor : Array Nat
  slots : Array (Option EdgeId)

/-- Puts an edge into the slot at the cursor of its source, and moves the cursor. -/
def Slots.place? (s : Slots) (id : EdgeId) (source : NodeId) : Option Slots := do
  let slot ← s.cursor[source.index]?
  let slots ← modify? s.slots slot fun _ => some id
  let cursor ← modify? s.cursor source.index (· + 1)
  return ⟨cursor, slots⟩

/-- The first `count` edges put into slots that were empty. -/
def scatter? (nodeCount : Nat) (starts : Array Nat) (edges : Array Edge) (count : Nat) :
    Option Slots :=
  (List.range count).foldlM (fun s i => do
    let e ← edges[i]?
    s.place? ⟨i⟩ e.source) ⟨starts.extract 0 nodeCount, Array.replicate edges.size none⟩

/-- Where the slices start, and what is in the slots at the end. -/
def layOut? (nodeCount : Nat) (edges : Array Edge) :
    Option (Array Nat × Array (Option EdgeId)) := do
  let counts ← outCounts? nodeCount edges
  let starts ← addUp? nodeCount counts
  let filled ← scatter? nodeCount starts edges edges.size
  return (starts, filled.slots)

variable {b : Builder} {n : Nat} {edges : Array Edge} {counts : Array Nat}

theorem modify?_eq {α : Type} {xs : Array α} {i : Nat} (inside : i < xs.size) (f : α → α) :
    modify? xs i f = some (xs.modify i f) := if_pos inside

theorem outCounts?_eq (inside : ∀ e ∈ edges.toList, e.source.index < n) :
    outCounts? n edges = some (outCounts n edges) := by
  have run (l : List Edge) (counts : Array Nat) (size : counts.size = n + 1)
      (inside : ∀ e ∈ l, e.source.index < n) :
      l.foldlM (fun counts e => modify? counts (e.source.index + 1) (· + 1)) counts =
        some (l.foldl (fun counts e => counts.modify (e.source.index + 1) (· + 1)) counts) := by
    induction l generalizing counts with
    | nil => rfl
    | cons e l ih =>
      obtain ⟨first, rest⟩ := List.forall_mem_cons.mp inside
      rw [List.foldlM_cons, modify?_eq (by omega)]
      exact ih _ (by rw [Array.size_modify, size]) rest
  rw [outCounts?, outCounts, ← Array.foldl_toList]
  exact run _ _ (by simp) inside

/-- Up to the entry reached, counts are added up; behind it they are as they were. -/
theorem addUp?_run (size : counts.size = n + 1) {i : Nat} (hi : i ≤ n) :
    ∃ totals, addUp? i counts = some totals ∧ totals.size = n + 1 ∧
      ∀ k, totals[k]? = if k ≤ i then some ((counts.toList.take (k + 1)).sum) else counts[k]? := by
  induction i with
  | zero =>
    refine ⟨counts, rfl, size, fun k => ?_⟩
    split
    · rename_i first
      obtain rfl := Nat.le_zero.mp first
      rw [List.take_add_one, Array.getElem?_toList, Array.getElem?_eq_getElem (by omega)]
      simp
    · rfl
  | succ i ih =>
    obtain ⟨totals, run, width, entry⟩ := ih (by omega)
    have before := entry i
    rw [if_pos (Nat.le_refl i)] at before
    have next : counts[i + 1]? = some counts[i + 1] := Array.getElem?_eq_getElem (by omega)
    refine ⟨totals.modify (i + 1) (· + (counts.toList.take (i + 1)).sum), ?_, ?_, fun k => ?_⟩
    · rw [addUp?] at run ⊢
      rw [List.range_succ, List.foldlM_append, run]
      simp only [Option.bind_eq_bind, Option.bind_some, List.foldlM_cons, before,
        modify?_eq (i := i + 1) (by omega : i + 1 < totals.size), List.foldlM_nil, Option.pure_def]
    · rw [Array.size_modify, width]
    · rw [Array.getElem?_modify, entry k]
      by_cases here : i + 1 = k
      · subst here
        rw [if_pos rfl, if_neg (by omega), if_pos (Nat.le_refl _), next,
          List.take_add_one (i := i + 1), Array.getElem?_toList, next]
        simp [Nat.add_comm]
      · rw [if_neg here]
        by_cases reached : k ≤ i
        · rw [if_pos reached, if_pos (by omega)]
        · rw [if_neg reached, if_neg (by omega)]

theorem addUp?_eq (size : counts.size = n + 1) : addUp? n counts = some (runningTotals counts) := by
  obtain ⟨totals, run, width, entry⟩ := addUp?_run size (Nat.le_refl n)
  rw [run]
  congr 1
  apply Array.ext_getElem?
  intro k
  rw [entry, getElem?_runningTotals]
  by_cases inside : k ≤ n
  · rw [if_pos inside, if_pos (by omega)]
  · rw [if_neg inside, if_neg (by omega), Array.getElem?_eq_none (by omega)]

/-! ## Slots -/

/-- Slots that agree with slices under way in which some edge stands for an empty slot. -/
structure Slots.StandFor (s : Slots) (n : Nat) (blank : EdgeId) (t : Scatter) : Prop where
  slots : s.slots.map (·.getD blank) = t.slots
  width : s.cursor.size = n
  cursor : ∀ k < n, s.cursor[k]? = t.cursor[k]?

theorem Slots.place?_eq {s : Slots} {id : EdgeId} {source : NodeId}
    (pointed : source.index < s.cursor.size)
    (inside : s.cursor.getD source.index 0 < s.slots.size) :
    s.place? id source =
      some ⟨s.cursor.modify source.index (· + 1),
        s.slots.modify (s.cursor.getD source.index 0) fun _ => some id⟩ := by
  have slot : s.cursor[source.index]? = some (s.cursor.getD source.index 0) := by
    rw [Array.getD_eq_getD_getElem?, Array.getElem?_eq_getElem pointed, Option.getD_some]
  rw [place?, slot, modify?_eq pointed]
  simp only [Option.bind_eq_bind, Option.bind_some, modify?_eq inside, Option.pure_def]

theorem Slots.StandFor.place {s : Slots} {blank : EdgeId} {t : Scatter} (stand : s.StandFor n blank t)
    {source : NodeId} (inside : source.index < n) (id : EdgeId) :
    Slots.StandFor ⟨s.cursor.modify source.index (· + 1),
      s.slots.modify (s.cursor.getD source.index 0) fun _ => some id⟩ n blank
      (t.place id source) := by
  have pointed : s.cursor.getD source.index 0 = t.cursor.getD source.index 0 := by
    rw [Array.getD_eq_getD_getElem?, Array.getD_eq_getD_getElem?, stand.cursor _ inside]
  refine ⟨?_, ?_, fun k hk => ?_⟩
  · apply Array.ext_getElem?
    intro p
    rw [Scatter.place, ← stand.slots, Array.getElem?_setIfInBounds, Array.getElem?_map,
      Array.getElem?_modify, ← pointed]
    by_cases here : s.cursor.getD source.index 0 = p
    · rw [if_pos here, if_pos here, Array.size_map]
      by_cases held : p < s.slots.size
      · simp [here, held]
      · simp [here, held]
    · rw [if_neg here, if_neg here, Array.getElem?_map]
  · rw [Array.size_modify, stand.width]
  · rw [Scatter.place, Array.getElem?_modify, Array.getElem?_modify, stand.cursor k hk]

/-- The slices under way once the first edges are in, the slots blank at first. -/
def scattered (starts : Array Nat) (edges : Array Edge) (blank : EdgeId) (count : Nat) : Scatter :=
  (List.range count).foldl (fun s i =>
    match edges[i]? with
    | some e => s.place ⟨i⟩ e.source
    | none => s) ⟨starts, Array.replicate edges.size blank⟩

theorem scattered_succ {starts : Array Nat} {blank : EdgeId} {i : Nat} {e : Edge}
    (he : edges[i]? = some e) :
    scattered starts edges blank (i + 1) =
      (scattered starts edges blank i).place ⟨i⟩ e.source := by
  rw [scattered, List.range_succ, List.foldl_append]
  simp only [List.foldl_cons, List.foldl_nil, he]
  rfl

theorem scatter?_succ {starts : Array Nat} {s : Slots} {i : Nat} {e : Edge}
    (run : scatter? n starts edges i = some s) (he : edges[i]? = some e) :
    scatter? n starts edges (i + 1) = s.place? ⟨i⟩ e.source := by
  rw [scatter?] at run ⊢
  rw [List.range_succ, List.foldlM_append, run]
  simp only [Option.bind_eq_bind, Option.bind_some, List.foldlM_cons, List.foldlM_nil, he]
  exact Option.bind_fun_some _

theorem scattered_held (b : Builder) (name : String) (blank : EdgeId)
    (inside : ∀ (i : Nat) (e : Edge), b.edges[i]? = some e → e.source.index < b.nodes.size)
    {i : Nat} (hi : i ≤ b.edges.size) :
    Scattered b.nodes.size b.edges i (scattered (b.build name).outStart b.edges blank i) :=
  scattered_run (scattered_start b name (by simp)) inside i hi

/-- Every edge finds a slot, and whatever is taken to stand for an empty slot, the slots are those of
the slices under way. -/
theorem scatter?_run (b : Builder) (name : String)
    (inside : ∀ (i : Nat) (e : Edge), b.edges[i]? = some e → e.source.index < b.nodes.size)
    {i : Nat} (hi : i ≤ b.edges.size) :
    ∃ s, scatter? b.nodes.size (b.build name).outStart b.edges i = some s ∧
      ∀ blank, s.StandFor b.nodes.size blank
        (scattered (b.build name).outStart b.edges blank i) := by
  have starts := size_outStart b name
  induction i with
  | zero =>
    refine ⟨_, rfl, fun blank => ⟨?_, ?_, fun k hk => ?_⟩⟩
    · simp [scattered]
    · simp [starts]
    · rw [Array.getElem?_extract, if_pos (by omega), Nat.zero_add]
      rfl
  | succ i ih =>
    obtain ⟨s, run, stand⟩ := ih (by omega)
    have he : b.edges[i]? = some b.edges[i] := Array.getElem?_eq_getElem (by omega)
    have source := inside i _ he
    -- Any stand-in shows that the slot is there.
    have slot := (scattered_held b name Id.invalid inside (i := i) (by omega)).cursor_lt he source
    have size : s.slots.size = b.edges.size := by
      have held := scattered_held b name Id.invalid inside (i := i) (by omega)
      rw [← held.size, ← (stand Id.invalid).slots, Array.size_map]
    have pointed : s.cursor.getD b.edges[i].source.index 0 < s.slots.size := by
      rw [Array.getD_eq_getD_getElem?, (stand Id.invalid).cursor _ source,
        ← Array.getD_eq_getD_getElem?, size]
      exact slot.2
    have placed : s.place? ⟨i⟩ b.edges[i].source = some _ :=
      Slots.place?_eq ((stand Id.invalid).width ▸ source) pointed
    refine ⟨_, (scatter?_succ run he).trans placed, fun blank => ?_⟩
    rw [scattered_succ he]
    exact (stand blank).place source ⟨i⟩

/-! ## Every slot is filled -/

/-- Every position lies in the slice of a node. -/
theorem exists_slice (edges : Array Edge) {m p : Nat} (hp : p < below edges m) :
    ∃ k < m, below edges k ≤ p ∧ p < below edges (k + 1) := by
  induction m with
  | zero => simp [below] at hp
  | succ m ih =>
    by_cases earlier : p < below edges m
    · obtain ⟨k, hk, bounds⟩ := ih earlier
      exact ⟨k, by omega, bounds⟩
    · exact ⟨m, by omega, by omega, hp⟩

/-- All edges start below a number that is above all their sources. -/
theorem below_eq_size (inside : ∀ e ∈ edges.toList, e.source.index < n) :
    below edges n = edges.size := by
  rw [below, List.countP_eq_length.mpr, Array.length_toList]
  intro e he
  exact decide_eq_true (inside e he)

/-- What stands in the slots at the end does not depend on what stood there at first. -/
theorem Scattered.slots_eq {s t : Scatter} (inside : ∀ e ∈ edges.toList, e.source.index < n)
    (left : Scattered n edges edges.size s) (right : Scattered n edges edges.size t) :
    s.slots = t.slots := by
  apply Array.ext_getElem?
  intro p
  by_cases hp : p < edges.size
  · rw [← below_eq_size inside] at hp
    obtain ⟨k, hk, start, stop⟩ := exists_slice edges hp
    rw [below_succ] at stop
    have held : (sliceOf edges k edges.size)[p - below edges k]? = some _ :=
      List.getElem?_eq_getElem (by omega)
    have first := left.slot k hk _ _ held
    have second := right.slot k hk _ _ held
    rw [Nat.add_sub_of_le start] at first second
    rw [first, second]
  · rw [Array.getElem?_eq_none (by rw [left.size]; omega),
      Array.getElem?_eq_none (by rw [right.size]; omega)]

/-- If anything may stand for an empty slot, none is empty. -/
theorem eq_map_some {slots : Array (Option EdgeId)} {held : Array EdgeId}
    (all : ∀ blank, slots.map (·.getD blank) = held) : slots = held.map some := by
  apply Array.ext_getElem?
  intro p
  have read (blank : EdgeId) : slots[p]?.map (·.getD blank) = held[p]? := by
    rw [← Array.getElem?_map, all]
  rw [Array.getElem?_map]
  rcases slot : slots[p]? with _ | _ | e
  · rw [← read Id.invalid, slot]
    rfl
  · -- An empty slot would be read as two edges.
    have same := (read ⟨0⟩).trans (read ⟨1⟩).symm
    rw [slot] at same
    cases same
  · rw [← read Id.invalid, slot]
    rfl

theorem size_outEdges (sound : b.Sound) (name : String) :
    (b.build name).outEdges.size = b.edges.size := by
  obtain ⟨s, held, layout⟩ := scattered_build b name fun i e he => (sound i e he).1
  rw [layout, held.size]

theorem Sound.sources (sound : b.Sound) : ∀ e ∈ b.edges.toList, e.source.index < b.nodes.size := by
  intro e he
  obtain ⟨i, held⟩ := List.mem_iff_getElem?.mp he
  exact (sound i e (Array.getElem?_toList ▸ held)).1

/-- Laid out with every access checked and the slots empty at first, the slices are those of the
network, and no slot stays empty. -/
theorem layOut?_eq (sound : b.Sound) (name : String) :
    layOut? b.nodes.size b.edges =
      some ((b.build name).outStart, (b.build name).outEdges.map some) := by
  have inside (i : Nat) (e : Edge) (he : b.edges[i]? = some e) : e.source.index < b.nodes.size :=
    (sound i e he).1
  have last := Nat.le_refl b.edges.size
  obtain ⟨s, run, stand⟩ := scatter?_run b name inside last
  have slots : s.slots = (b.build name).outEdges.map some := by
    apply eq_map_some
    intro blank
    rw [(stand blank).slots]
    apply Scattered.slots_eq sound.sources
    · exact scattered_held b name blank inside last
    · exact scattered_held b name Id.invalid inside last
  have starts : addUp? b.nodes.size (outCounts b.nodes.size b.edges) =
      some (b.build name).outStart := addUp?_eq (size_outCounts _ _)
  rw [layOut?, outCounts?_eq sound.sources]
  simp only [Option.bind_eq_bind, Option.bind_some, starts, run, slots, Option.pure_def]

/-! ## One slice behind the other -/

theorem flatMap_edgesFrom_build (b : Builder) (name : String) {m : Nat} (hm : m ≤ b.nodes.size) :
    ((List.range m).map (⟨·⟩)).flatMap (b.build name).edgesFrom =
      (b.build name).outEdges.toList.take (below b.edges m) := by
  induction m with
  | zero => simp [below]
  | succ m ih =>
    have lower : below b.edges m ≤ below b.edges (m + 1) := below_mono _ (Nat.le_succ m)
    have slice := edgesFrom_eq_extract name (n := ⟨m⟩) (Nat.lt_of_succ_le hm)
    rw [List.range_succ, List.map_append, List.flatMap_append, ih (Nat.le_of_succ_le hm),
      List.map_singleton, List.flatMap_singleton, slice, Array.toList_extract,
      List.extract_eq_take_drop, ← List.take_add, Nat.add_sub_of_le lower]

end Builder

namespace Network

variable {net : Network}

/-- All nodes in the order in which they were added. -/
def nodeIds (net : Network) : List NodeId := (List.range net.nodeCount).map (⟨·⟩)

theorem mem_nodeIds {n : NodeId} : n ∈ net.nodeIds ↔ n.index < net.nodeCount := by
  rcases n with ⟨i⟩
  simp [nodeIds]

/-- No edge leaves two nodes. -/
theorem Sound.nodup_edgesFrom (sound : net.Sound) {nodes : List NodeId} (nodup : nodes.Nodup) :
    (nodes.flatMap net.edgesFrom).Nodup := by
  refine List.nodup_flatMap.mpr ⟨fun n _ => (sound.ascending_edgesFrom n).nodup, ?_⟩
  refine nodup.imp fun different e here there => different ?_
  obtain ⟨edge, held, rfl⟩ := sound.mem_edgesFrom.mp here
  obtain ⟨other, held', rfl⟩ := sound.mem_edgesFrom.mp there
  rw [held, Option.some.injEq] at held'
  rw [held']

/-- Every edge leaves one node. -/
theorem Sound.perm_edgesFrom (sound : net.Sound) :
    (net.nodeIds.flatMap net.edgesFrom).Perm net.edgeIds := by
  have numbers : net.nodeIds.Nodup := (Id.ascending_range _).nodup
  have all : net.edgeIds.Nodup := (Id.ascending_range _).nodup
  refine (List.perm_ext_iff_of_nodup (sound.nodup_edgesFrom numbers) all).mpr ?_
  intro e
  rw [List.mem_flatMap, mem_edgeIds, ← edge?_isSome, Option.isSome_iff_exists]
  constructor
  · rintro ⟨n, -, leaving⟩
    obtain ⟨edge, held, -⟩ := sound.mem_edgesFrom.mp leaving
    exact ⟨edge, held⟩
  · rintro ⟨edge, held⟩
    refine ⟨edge.source, mem_nodeIds.mpr (sound.source_lt held), ?_⟩
    exact sound.mem_edgesFrom.mpr ⟨edge, held, rfl⟩

/-- The edges that leave a node are a slice of one array, in ascending order. The slices follow one
another, and hold every edge once and nothing else. -/
structure LaidOut (net : Network) : Prop where
  leaving {n : NodeId} {e : EdgeId} :
    e ∈ net.edgesFrom n ↔ ∃ edge, net.edge? e = some edge ∧ edge.source = n
  ascending (n : NodeId) : Id.Ascending (net.edgesFrom n)
  /-- One entry for the start of each slice, and one for the end of the last. -/
  entries : net.outStart.size = net.nodeCount + 1
  first : net.outStart[0]? = some 0
  last : net.outStart[net.nodeCount]? = some net.edgeCount
  nondecreasing : net.outStart.toList.Pairwise (· ≤ ·)
  slices : net.nodeIds.flatMap net.edgesFrom = net.outEdges.toList
  once : net.outEdges.toList.Perm net.edgeIds
  valid : net.edgeCount < Id.limit → ∀ e ∈ net.outEdges.toList, e.isValid = true

theorem isValid_of_lt {e : EdgeId} (small : net.edgeCount < Id.limit)
    (inside : e.index < net.edgeCount) : e.isValid = true := by
  apply bne_iff_ne.mpr
  rintro rfl
  have past : Id.limit - 1 < net.edgeCount := inside
  omega

end Network

namespace Builder

variable {b : Builder}

theorem laidOut_build (reachable : b.Reachable) (name : String) : (b.build name).LaidOut := by
  have sound : (b.build name).Sound := Network.Built.sound ⟨b, name, reachable, rfl⟩
  have total := below_eq_size reachable.sound.sources
  have slices := flatMap_edgesFrom_build b name (Nat.le_refl _)
  rw [total, List.take_of_length_le (Nat.le_of_eq (size_outEdges reachable.sound name))] at slices
  have once := slices ▸ sound.perm_edgesFrom
  constructor
  case leaving => exact sound.mem_edgesFrom
  case ascending => exact sound.ascending_edgesFrom
  case entries => exact size_outStart b name
  case first =>
    rw [getElem?_outStart, if_pos (Nat.zero_le _)]
    simp [below]
  case last =>
    have last := getElem?_outStart b name b.nodes.size
    rwa [if_pos (Nat.le_refl _), total] at last
  case nondecreasing =>
    apply List.pairwise_iff_getElem.mpr
    intro i j hi hj before
    have entry (k : Nat) (hk : k < (b.build name).outStart.toList.length) :
        (b.build name).outStart.toList[k] = below b.edges k := by
      have start := getElem?_outStart b name k
      rw [Array.length_toList, size_outStart] at hk
      rw [if_pos (by omega), ← Array.getElem?_toList] at start
      exact (List.getElem?_eq_some_iff.mp start).2
    rw [entry i hi, entry j hj]
    exact below_mono _ (Nat.le_of_lt before)
  case slices => exact slices
  case once => exact once
  case valid =>
    intro small e held
    apply Network.isValid_of_lt small
    exact Network.mem_edgeIds.mp (once.mem_iff.mp held)

/-- Whatever was added to a builder, its edges are laid out without an access out of range and with no
slot left empty, and the layout is right. -/
theorem layout_correct (reachable : b.Reachable) (name : String) :
    layOut? b.nodes.size b.edges =
        some ((b.build name).outStart, (b.build name).outEdges.map some) ∧
      (b.build name).LaidOut :=
  ⟨layOut?_eq reachable.sound name, laidOut_build reachable name⟩

/-- A node that two edges leave, one that one leaves and one that none leaves. -/
def hub : Builder :=
  filled [⟨"a", ⟨0, 0⟩⟩, ⟨"b", ⟨1, 0⟩⟩, ⟨"c", ⟨0, 1⟩⟩]
    [⟨"ca", ⟨2⟩, ⟨0⟩, 1⟩, ⟨"ab", ⟨0⟩, ⟨1⟩, 1⟩, ⟨"cb", ⟨2⟩, ⟨1⟩, 1⟩]

theorem layout_correct_sample :
    hub.Reachable ∧
      layOut? hub.nodes.size hub.edges = some (#[0, 1, 1, 3], #[some ⟨1⟩, some ⟨0⟩, some ⟨2⟩]) ∧
      (hub.build "hub").LaidOut := by
  have reachable : hub.Reachable :=
    reachable_filled ⟨by decide, by decide, by decide, by decide, by decide⟩
  have starts : (hub.build "hub").outStart = #[0, 1, 1, 3] := by decide
  have slices : (hub.build "hub").outEdges = #[⟨1⟩, ⟨0⟩, ⟨2⟩] := by decide
  obtain ⟨filled, laid⟩ := layout_correct reachable "hub"
  rw [starts, slices] at filled
  exact ⟨reachable, by simpa using filled, laid⟩

end Builder

end RoadFlow
