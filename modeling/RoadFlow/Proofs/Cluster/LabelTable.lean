import RoadFlow.Cluster.Labels
import RoadFlow.Proofs.Network.Names
import RoadFlow.Report.Line

/-!
# Labels that a table gives

A table of labels is read line by line, and a line that names a node again takes the place of the
one before (`foldlM_addRow`). So a table is accepted if its lines name all nodes of the network and
no others, and a node has the label of the last line that names it. Only where no node is named
twice does the order of the lines not matter (`labels_of_table`).
-/

namespace RoadFlow.Labels

open Csv (Row)
open Text.Utf8 (encode)

variable {net : Network} {line : ClusterLine} {lines : List ClusterLine} {n : NodeId}
  {labels : List Nat}

/-- The row that is read from a line. -/
def rowOf (line : ClusterLine) : Row schema.columns := (line.node, line.cluster, ())

/-- The label of a node on the last of some lines that names it. -/
def lastLabel? (net : Network) (lines : List ClusterLine) (n : NodeId) : Option Nat :=
  (lines.reverse.find? fun line => net.NamesNode line.node n).map (·.cluster)

theorem lastLabel?_concat : lastLabel? net (lines ++ [line]) n =
    if net.NamesNode line.node n then some line.cluster else lastLabel? net lines n := by
  rw [lastLabel?, List.reverse_append, List.reverse_singleton, List.singleton_append,
    List.find?_cons]
  by_cases named : net.NamesNode line.node n <;> simp [named, lastLabel?]

theorem lastLabel?_isSome :
    (lastLabel? net lines n).isSome = true ↔ ∃ line ∈ lines, net.NamesNode line.node n := by
  simp [lastLabel?]

theorem lastLabel?_eq_some {before after : List ClusterLine}
    (named : net.NamesNode line.node n) (last : ∀ later ∈ after, ¬ net.NamesNode later.node n) :
    lastLabel? net (before ++ line :: after) n = some line.cluster := by
  induction after using List.reverseRecOn with
  | nil => rw [lastLabel?_concat, if_pos named]
  | append_singleton after later ih =>
    rw [← List.cons_append, ← List.append_assoc, lastLabel?_concat, if_neg (last later (by simp))]
    apply ih
    intro earlier member
    exact last earlier (by simp [member])

theorem lastLabel?_eq_none :
    lastLabel? net lines n = none ↔ ∀ line ∈ lines, ¬ net.NamesNode line.node n := by
  simp [lastLabel?]

/-- The label of a node is one that a line gives it. -/
theorem exists_line_of_lastLabel? {label : Nat} (last : lastLabel? net lines n = some label) :
    ∃ line ∈ lines, net.NamesNode line.node n ∧ line.cluster = label := by
  obtain ⟨line, found, rfl⟩ := Option.map_eq_some_iff.mp last
  have named := List.find?_some found
  rw [decide_eq_true_eq] at named
  exact ⟨line, List.mem_reverse.mp (List.mem_of_find?_eq_some found), named, rfl⟩

/-- How many lines name a node. -/
def timesNamed (net : Network) (lines : List ClusterLine) (n : NodeId) : Nat :=
  lines.countP fun line => net.NamesNode line.node n

theorem timesNamed_pos :
    0 < timesNamed net lines n ↔ ∃ line ∈ lines, net.NamesNode line.node n := by
  simp [timesNamed, List.countP_pos_iff]

/-- A node that is named once has the label of that line. -/
theorem lastLabel?_of_once (once : timesNamed net lines n ≤ 1) (member : line ∈ lines)
    (named : net.NamesNode line.node n) : lastLabel? net lines n = some line.cluster := by
  obtain ⟨before, after, rfl⟩ := List.append_of_mem member
  apply lastLabel?_eq_some named
  intro later among again
  have two : 0 < timesNamed net after n := timesNamed_pos.mpr ⟨later, among, again⟩
  simp only [timesNamed, List.countP_append, List.countP_cons, named, decide_true, if_true]
    at once two
  omega

theorem lastLabel?_perm {lines' : List ClusterLine} (once : timesNamed net lines n ≤ 1)
    (perm : lines'.Perm lines) : lastLabel? net lines' n = lastLabel? net lines n := by
  have once' : timesNamed net lines' n ≤ 1 := (perm.countP_eq _).trans_le once
  cases named : lastLabel? net lines n with
  | none =>
    rw [lastLabel?_eq_none] at named ⊢
    intro line member
    exact named line (perm.mem_iff.mp member)
  | some label =>
    obtain ⟨line, member, names, rfl⟩ := exists_line_of_lastLabel? named
    exact lastLabel?_of_once once' (perm.mem_iff.mpr member) names

/-! ## Lines -/

theorem addRow_known {read : Array (Option Nat)} (built : net.Built)
    (named : net.NamesNode line.node n) :
    addRow net read (.ok (rowOf line)) =
      .ok (read.setIfInBounds n.index (some line.cluster)) := by
  have found : net.findNode? line.node = some n := built.findNode?_iff.mpr named
  simp only [addRow, rowOf, found]

theorem addRow_unknown {read : Array (Option Nat)} (built : net.Built)
    (unknown : ∀ n, ¬ net.NamesNode line.node n) :
    addRow net read (.ok (rowOf line)) = .error (.unknownNode line.node) := by
  have missed : net.findNode? line.node = none := by
    apply Option.eq_none_iff_forall_ne_some.mpr
    intro n found
    exact unknown n (built.findNode?_iff.mp found)
  simp only [addRow, rowOf, missed]

/-- After lines that name nodes, each node has the label of the last line that names it. -/
theorem foldlM_addRow (built : net.Built)
    (known : ∀ line ∈ lines, ∃ n, net.NamesNode line.node n) :
    (lines.map fun line => .ok (rowOf line)).foldlM (addRow net)
        (Array.replicate net.nodeCount none) =
      .ok (Array.ofFn fun i : Fin net.nodeCount => lastLabel? net lines ⟨i⟩) := by
  induction lines using List.reverseRecOn with
  | nil =>
    show Except.ok _ = Except.ok _
    congr 1
    apply Array.ext
    · simp
    · intro i _ _
      simp [lastLabel?]
  | append_singleton lines line ih =>
    obtain ⟨n, named⟩ := known line (by simp)
    have earlier := ih fun line member => known line (by simp [member])
    rw [List.map_append, List.foldlM_append, bind_eq_ok]
    refine ⟨_, earlier, ?_⟩
    rw [List.map_singleton, List.foldlM_cons, addRow_known built named]
    show Except.ok _ = Except.ok _
    congr 1
    have one {i : Nat} : net.NamesNode line.node ⟨i⟩ ↔ n.index = i := by
      constructor
      · intro other
        exact congrArg Id.index (built.namesNode_unique named other)
      · rintro rfl
        exact named
    apply Array.ext_getElem?
    intro i
    rw [Array.getElem?_setIfInBounds, Array.getElem?_ofFn, Array.getElem?_ofFn, Array.size_ofFn]
    by_cases inside : i < net.nodeCount
    · by_cases same : n.index = i <;> simp [inside, lastLabel?_concat, one, same]
    · have outside : n.index ≠ i := by
        rintro rfl
        exact inside named.1
      simp [inside, outside]

/-- The first line that names no node is the one that is refused. -/
theorem foldlM_addRow_unknown {before after : List ClusterLine} (built : net.Built)
    (known : ∀ line ∈ before, ∃ n, net.NamesNode line.node n)
    (unknown : ∀ n, ¬ net.NamesNode line.node n) :
    ((before ++ line :: after).map fun line => .ok (rowOf line)).foldlM (addRow net)
        (Array.replicate net.nodeCount none) = .error (.unknownNode line.node) := by
  rw [List.map_append, List.map_cons]
  exact foldlM_stops (foldlM_addRow built known) (addRow_unknown built unknown)

/-! ## Nodes -/

theorem complete_eq_ok {read : Array (Option Nat)} :
    complete net read = .ok labels ↔ read.toList = labels.map some := by
  constructor
  · intro completed
    obtain ⟨rfl, given⟩ := eq_map_of_mapM (g := fun p => p.1.getD 0)
      (by rintro ⟨label, i⟩ y step; cases label <;> cases step; rfl) completed
    have labelled : ∀ p ∈ read.toList.zipIdx, some (p.1.getD 0) = p.1 := by
      rintro ⟨label, i⟩ member
      have step := given _ member
      cases label with
      | none => cases step
      | some label => rfl
    rw [List.map_map]
    exact (List.zipIdx_map_fst 0 _).symm.trans (List.map_congr_left fun p hp => (labelled p hp).symm)
  · intro labelled
    have firsts : (labels.map some).zipIdx.map (fun p => p.1.getD 0) =
        ((labels.map some).zipIdx.map Prod.fst).map (·.getD 0) := by
      rw [List.map_map]
      rfl
    rw [complete, labelled, mapM_eq_map (g := fun p => p.1.getD 0)]
    · rw [firsts, List.zipIdx_map_fst, List.map_map]
      exact congrArg _ (List.map_id labels)
    · rintro ⟨label, i⟩ listed
      obtain ⟨l, -, rfl⟩ := List.mem_map.mp (List.fst_mem_of_mem_zipIdx listed)
      rfl

/-- The first node without a label is the one that is reported. -/
theorem complete_missing {before after : List (Option Nat)}
    (given : ∀ label ∈ before, label.isSome = true) :
    complete net (before ++ none :: after).toArray =
      .error (.missingLabel (net.nodeName ⟨before.length⟩)) := by
  rw [complete, List.zipIdx_append, List.zipIdx_cons, Nat.zero_add]
  apply mapM_stops
  · rintro ⟨label, i⟩ listed
    obtain ⟨label, rfl⟩ := Option.isSome_iff_exists.mp (given _ (List.fst_mem_of_mem_zipIdx listed))
    exact ⟨label, rfl⟩
  · rfl

/-! ## Tables -/

/-- All nodes have the labels of the last lines that name them. -/
theorem lastLabels_eq :
    List.ofFn (fun i : Fin net.nodeCount => lastLabel? net lines ⟨i⟩) = labels.map some ↔
      labels.length = net.nodeCount ∧
        ∀ n : NodeId, n.index < net.nodeCount → labels[n.index]? = lastLabel? net lines n := by
  constructor
  · intro same
    have length : labels.length = net.nodeCount := by simpa using (congrArg List.length same).symm
    refine ⟨length, ?_⟩
    intro n inside
    have entry := congrArg (·[n.index]?) same
    have held : n.index < labels.length := length ▸ inside
    simp [inside, held] at entry
    simp [held, entry]
  · rintro ⟨length, same⟩
    apply List.ext_getElem
    · simp [length]
    · intro i inside held
      have label := same ⟨i⟩ (by simpa using inside)
      rw [List.getElem?_eq_getElem (by simpa using held)] at label
      simp [← label]

/-- A table is accepted if its lines name all nodes and no others. The last line that names a node
gives its label. -/
theorem ofRows_eq_ok (built : net.Built) :
    ofRows net (lines.map fun line => .ok (rowOf line)) = .ok labels ↔
      (∀ line ∈ lines, ∃ n, net.NamesNode line.node n) ∧ labels.length = net.nodeCount ∧
        ∀ n : NodeId, n.index < net.nodeCount → labels[n.index]? = lastLabel? net lines n := by
  by_cases known : ∀ line ∈ lines, ∃ n, net.NamesNode line.node n
  · rw [ofRows, foldlM_addRow built known, ← lastLabels_eq, and_iff_right known]
    show complete net _ = _ ↔ _
    rw [complete_eq_ok, Array.toList_ofFn]
  · obtain ⟨before, line, after, rfl, earlier, stranger⟩ := exists_first known
    rw [ofRows, foldlM_addRow_unknown built earlier (not_exists.mp stranger)]
    constructor
    · nofun
    · intro given
      exact absurd given.1 known

theorem ofRows_missing (built : net.Built)
    (known : ∀ line ∈ lines, ∃ n, net.NamesNode line.node n) (inside : n.index < net.nodeCount)
    (missing : ∀ line ∈ lines, ¬ net.NamesNode line.node n)
    (given : ∀ m : NodeId, m.index < n.index → ∃ line ∈ lines, net.NamesNode line.node m) :
    ofRows net (lines.map fun line => .ok (rowOf line)) =
      .error (.missingLabel (net.nodeName n)) := by
  let read := List.ofFn fun i : Fin net.nodeCount => lastLabel? net lines ⟨i⟩
  have held : n.index < read.length := by
    rw [List.length_ofFn]
    exact inside
  have here : read[n.index] = none := by
    rw [List.getElem_ofFn]
    exact lastLabel?_eq_none.mpr missing
  have split : read = read.take n.index ++ none :: read.drop (n.index + 1) := by
    rw [← here, List.getElem_cons_drop, List.take_append_drop]
  have front : ∀ label ∈ read.take n.index, label.isSome = true := by
    intro label member
    obtain ⟨i, before, rfl⟩ := List.mem_take_iff_getElem.mp member
    rw [List.getElem_ofFn]
    exact lastLabel?_isSome.mpr (given ⟨i⟩ (Nat.lt_of_lt_of_le before (Nat.min_le_left _ _)))
  have length : (read.take n.index).length = n.index := by
    rw [List.length_take, Nat.min_eq_left (Nat.le_of_lt held)]
  rw [ofRows, foldlM_addRow built known, ← List.toArray_ofFn]
  show complete net read.toArray = _
  rw [split, complete_missing front, length]

/-- What reading some lines comes to. -/
structure Outcome (net : Network) (lines : List ClusterLine)
    (result : Except MatrixFault (List Nat)) : Prop where
  accepted : (∃ labels, result = .ok labels) ↔
    (∀ line ∈ lines, ∃ n, net.NamesNode line.node n) ∧
      ∀ n : NodeId, n.index < net.nodeCount → 0 < timesNamed net lines n
  labels {labels : List Nat} : result = .ok labels → labels.length = net.nodeCount ∧
    ∀ n : NodeId, n.index < net.nodeCount → labels[n.index]? = lastLabel? net lines n
  /-- The first line that names no node is refused. -/
  unknown {before after : List ClusterLine} {line : ClusterLine} :
    lines = before ++ line :: after →
    (∀ earlier ∈ before, ∃ n, net.NamesNode earlier.node n) →
    (∀ n, ¬ net.NamesNode line.node n) → result = .error (.unknownNode line.node)
  /-- If all lines name nodes, the first node that none of them names is reported. -/
  missing {n : NodeId} : (∀ line ∈ lines, ∃ n, net.NamesNode line.node n) →
    n.index < net.nodeCount → timesNamed net lines n = 0 →
    (∀ m : NodeId, m.index < n.index → 0 < timesNamed net lines m) →
    result = .error (.missingLabel (net.nodeName n))

theorem outcome_ofRows (built : net.Built) (lines : List ClusterLine) :
    Outcome net lines (ofRows net (lines.map fun line => .ok (rowOf line))) where
  accepted := by
    constructor
    · rintro ⟨labels, read⟩
      obtain ⟨known, length, label⟩ := (ofRows_eq_ok built).mp read
      refine ⟨known, ?_⟩
      intro n inside
      rw [timesNamed_pos, ← lastLabel?_isSome, ← label n inside]
      simp [length, inside]
    · rintro ⟨known, named⟩
      let labels := List.ofFn fun i : Fin net.nodeCount => (lastLabel? net lines ⟨i⟩).getD 0
      refine ⟨labels, (ofRows_eq_ok built).mpr ⟨known, List.length_ofFn, ?_⟩⟩
      intro n inside
      obtain ⟨label, last⟩ := Option.isSome_iff_exists.mp
        (lastLabel?_isSome.mpr (timesNamed_pos.mp (named n inside)))
      simp [labels, inside, last]
  labels read := ((ofRows_eq_ok built).mp read).2
  unknown split earlier stranger := by
    rw [split, ofRows, foldlM_addRow_unknown built earlier stranger]
    rfl
  missing known inside unnamed given := by
    apply ofRows_missing built known inside
    · intro line member named
      exact absurd (timesNamed_pos.mpr ⟨line, member, named⟩) (Nat.not_lt_of_le unnamed.le)
    · intro m before
      exact timesNamed_pos.mp (given m before)

/-- A table is accepted if its lines name all nodes of the network and no others, and the last line
that names a node gives its label. Where no node is named twice, every node is named by one line,
which gives its label, and the order of the lines does not matter. -/
theorem labels_of_table {bytes : Csv.Bytes} (built : net.Built)
    (read : Csv.rows schema bytes = lines.map fun line => .ok (rowOf line)) :
    Outcome net lines (ofTable net bytes) ∧
    ((∀ n, timesNamed net lines n ≤ 1) →
      ((∃ labels, ofTable net bytes = .ok labels) ↔
        (∀ line ∈ lines, ∃ n, net.NamesNode line.node n) ∧
          ∀ n : NodeId, n.index < net.nodeCount → timesNamed net lines n = 1) ∧
      ∀ labels, ofTable net bytes = .ok labels →
        (∀ line ∈ lines, ∀ n, net.NamesNode line.node n →
          labels[n.index]? = some line.cluster) ∧
        ∀ (lines' : List ClusterLine) (bytes' : Csv.Bytes), lines'.Perm lines →
          Csv.rows schema bytes' = (lines'.map fun line => .ok (rowOf line)) →
          ofTable net bytes' = .ok labels) := by
  have outcome := outcome_ofRows built lines
  rw [← read] at outcome
  refine ⟨outcome, ?_⟩
  intro once
  constructor
  · have exactly (n : NodeId) : 0 < timesNamed net lines n ↔ timesNamed net lines n = 1 := by
      have := once n
      omega
    simp only [← exactly]
    exact outcome.accepted
  · intro labels given
    obtain ⟨length, label⟩ := outcome.labels given
    constructor
    · intro line member n named
      rw [label n named.1, lastLabel?_of_once (once n) member named]
    · intro lines' bytes' perm read'
      rw [ofTable, read', ofRows_eq_ok built]
      obtain ⟨known, -⟩ := outcome.accepted.mp ⟨labels, given⟩
      refine ⟨?_, length, ?_⟩
      · intro line member
        exact known line (perm.mem_iff.mp member)
      · intro n inside
        rw [label n inside, lastLabel?_perm (once n) perm]

/-- A table for the sample network is read by its lines. -/
theorem ofTable_sample {bytes : Csv.Bytes}
    (read : Csv.rows schema bytes = lines.map fun line => .ok (rowOf line))
    (known : ∀ line ∈ lines, ∃ i, i < 3 ∧ Network.sample.NamesNode line.node ⟨i⟩)
    (length : labels.length = 3)
    (label : ∀ i, i < 3 → labels[i]? = lastLabel? .sample lines ⟨i⟩) :
    ofTable .sample bytes = .ok labels := by
  rw [ofTable, read, ofRows_eq_ok Network.sample_built]
  refine ⟨?_, length, fun n => label n.index⟩
  intro line member
  obtain ⟨i, -, named⟩ := known line member
  exact ⟨_, named⟩

/-- Lines that name the nodes of the sample network in no order. -/
def sampleLines : List ClusterLine := [⟨1, "c"⟩, ⟨0, "a"⟩, ⟨0, "b"⟩]

theorem labels_of_table_sample :
    Network.sample.Built ∧
      Csv.rows schema (encode "node_id,cluster\nc,1\na,0\nb,0\n") =
        (sampleLines.map fun line => .ok (rowOf line)) ∧
      (∀ n, timesNamed .sample sampleLines n ≤ 1) ∧
      Outcome .sample sampleLines
        (ofTable .sample (encode "node_id,cluster\nc,1\na,0\nb,0\n")) ∧
      ofTable .sample (encode "node_id,cluster\na,0\nb,0\nc,1\n") = .ok [0, 0, 1] := by
  have read : Csv.rows schema (encode "node_id,cluster\nc,1\na,0\nb,0\n") =
      (sampleLines.map fun line => .ok (rowOf line)) := rfl
  have once (n : NodeId) : timesNamed .sample sampleLines n ≤ 1 := by
    rcases n with ⟨_ | _ | _ | i⟩
    · decide
    · decide
    · decide
    · have outside : ¬ i + 3 < Network.sample.nodeCount :=
        Nat.not_lt_of_le (Nat.le_add_left 3 i)
      simp [timesNamed, Network.NamesNode, outside]
  obtain ⟨outcome, unrepeated⟩ := labels_of_table Network.sample_built read
  have given : ofTable .sample (encode "node_id,cluster\nc,1\na,0\nb,0\n") = .ok [0, 0, 1] :=
    ofTable_sample read (by decide) rfl (by decide)
  obtain ⟨-, unordered⟩ := (unrepeated once).2 _ given
  have perm : [(⟨0, "a"⟩ : ClusterLine), ⟨0, "b"⟩, ⟨1, "c"⟩].Perm sampleLines := by decide
  exact ⟨Network.sample_built, read, once, outcome, unordered _ _ perm rfl⟩

/-- A table that names a node twice is accepted, and the order of its lines decides which label the
node has. -/
theorem node_named_twice :
    ∃ lines lines' : List ClusterLine, lines'.Perm lines ∧
      timesNamed .sample lines ⟨0⟩ = 2 ∧
      Csv.rows schema (encode "node_id,cluster\na,0\nb,0\nc,1\na,1\n") =
        (lines.map fun line => .ok (rowOf line)) ∧
      ofTable .sample (encode "node_id,cluster\na,0\nb,0\nc,1\na,1\n") = .ok [1, 0, 1] ∧
      Csv.rows schema (encode "node_id,cluster\na,1\nb,0\nc,1\na,0\n") =
        (lines'.map fun line => .ok (rowOf line)) ∧
      ofTable .sample (encode "node_id,cluster\na,1\nb,0\nc,1\na,0\n") = .ok [0, 0, 1] := by
  let first : List ClusterLine := [⟨0, "a"⟩, ⟨0, "b"⟩, ⟨1, "c"⟩, ⟨1, "a"⟩]
  let second : List ClusterLine := [⟨1, "a"⟩, ⟨0, "b"⟩, ⟨1, "c"⟩, ⟨0, "a"⟩]
  refine ⟨first, second, by decide, by decide, rfl, ?_, rfl, ?_⟩
  · exact @ofTable_sample first _ _ rfl (by decide) rfl (by decide)
  · exact @ofTable_sample second _ _ rfl (by decide) rfl (by decide)

end RoadFlow.Labels
