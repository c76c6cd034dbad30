import RoadFlow.Proofs.Network.Adjacency
import RoadFlow.Proofs.Network.Columns
import RoadFlow.Proofs.Network.Names
import RoadFlow.Proofs.Route.Lengths

/-!
# Calls of a builder

Calls come in any order, and some fail. A call that fails might as well not have been made: what is
built is what the others alone build, and these are numbered in the order in which they were made.
Numbers are not cut short here; up to `Id.limit` calls they are those of 32 bits
(`Builder.truncate_granted`). Tables are read by such calls, one for each row, and are refused if one
of them fails (`Builder.calls_recorded`).
-/

namespace RoadFlow

namespace Builder

inductive Call where
  | node (name : String) (position : Point)
  | edge (name : String) (source target : NodeId) (length : Float)
  | edgeByName (name source target : String) (length : Float)

/-- The number that a call gives out. -/
inductive Given where
  | node (id : NodeId)
  | edge (id : EdgeId)

def Given.node? : Given → Option NodeId
  | .node id => some id
  | .edge _ => none

def Given.edge? : Given → Option EdgeId
  | .node _ => none
  | .edge id => some id

namespace Call

def make (b : Builder) : Call → Except NetworkFault (Given × Builder)
  | .node name position => (b.addNode name position).map (Prod.map .node id)
  | .edge name source target length => (b.addEdge name source target length).map (Prod.map .edge id)
  | .edgeByName name source target length =>
    (b.addEdgeByName name source target length).map (Prod.map .edge id)

/-- The call on the columns of a builder. -/
def change : Call → Change Given
  | .node name position => .node <$> Columns.addNode name position
  | .edge name source target length => .edge <$> Columns.addEdge name source target length
  | .edgeByName name source target length =>
    .edge <$> Columns.addEdgeByName name source target length

/-- What the call asks for can be added to the network: its name is new there, the position or the
length is one, and the ends are there. -/
def Fits (net : Network) : Call → Prop
  | .node name position => position.isFinite = true ∧ net.findNode? name = none
  | .edge name source target length =>
    source.index < net.nodeCount ∧ target.index < net.nodeCount ∧ isLength length = true ∧
      net.findEdge? name = none
  | .edgeByName name source target length =>
    (net.findNode? source).isSome = true ∧ (net.findNode? target).isSome = true ∧
      isLength length = true ∧ net.findEdge? name = none

/-- What the call asked for stands in the network at the number that was given out. -/
def HeldIn (net : Network) : Call → Given → Prop
  | .node name position, .node id => net.nodes[id.index]? = some ⟨name, position⟩
  | .edge name source target length, .edge id => net.edge? id = some ⟨name, source, target, length⟩
  | .edgeByName name source target length, .edge id =>
    ∃ s t, net.findNode? source = some s ∧ net.findNode? target = some t ∧
      net.edge? id = some ⟨name, s, t, length⟩
  | _, _ => False

end Call

/-- The builder after some calls, and those of them that succeeded, with what they gave out. -/
structure Record where
  builder : Builder
  granted : List (Call × Given)

def Record.step (r : Record) (call : Call) : Record :=
  match call.make r.builder with
  | .ok (given, next) => ⟨next, r.granted ++ [(call, given)]⟩
  | .error _ => r

def record (calls : List Call) : Record := calls.foldl Record.step ⟨.empty, []⟩

/-- The columns after some calls, whether these succeed or fail. -/
def Columns.after (calls : List Call) : Columns :=
  calls.foldl (fun c call => (call.change.run c).2) empty.columns

variable {b next : Builder} {call : Call} {calls : List Call} {given : Given} {title : String}

/-! ## On the columns -/

theorem run_map_answer {α β : Type} {x : Change α} {f : α → β}
    {called : Except NetworkFault (α × Builder)} (h : x.run b.columns = b.answer called) :
    (f <$> x).run b.columns = b.answer (called.map (Prod.map f id)) := by
  rw [map_eq_pure_bind, run_bind, h]
  cases called <;> rfl

theorem change_columns (b : Builder) (call : Call) :
    call.change.run b.columns = b.answer (call.make b) := by
  cases call with
  | node name position => exact run_map_answer (addNode_columns name position)
  | edge name source target length => exact run_map_answer (addEdge_columns name source target length)
  | edgeByName name source target length =>
    exact run_map_answer (addEdgeByName_columns name source target length)

/-- A call that fails has written nothing. -/
theorem columns_of_failed {fault : NetworkFault} {c : Columns}
    (failed : call.change.run b.columns = (.error fault, c)) : c = b.columns := by
  rw [change_columns] at failed
  cases made : call.make b with
  | error fault =>
    rw [made] at failed
    cases failed
    rfl
  | ok granted =>
    rw [made] at failed
    cases failed

theorem record_concat (calls : List Call) (call : Call) :
    record (calls ++ [call]) = (record calls).step call := by
  rw [record, List.foldl_append]
  rfl

theorem after_columns (calls : List Call) :
    Columns.after calls = (record calls).builder.columns := by
  induction calls using List.reverseRecOn with
  | nil => rfl
  | append_singleton calls call ih =>
    have last : Columns.after (calls ++ [call]) = (call.change.run (Columns.after calls)).2 := by
      rw [Columns.after, List.foldl_append]
      rfl
    rw [last, ih, change_columns, record_concat, Record.step]
    split
    · rename_i made
      rw [made]
      rfl
    · rename_i made
      rw [made]
      rfl

/-! ## Calls that succeed -/

theorem exists_addEdge_iff {name : String} {source target : NodeId} {length : Float} :
    (∃ id next, b.addEdge name source target length = .ok (id, next)) ↔
      source.index < b.nodes.size ∧ target.index < b.nodes.size ∧ isLength length = true ∧
        b.edgeByName[name]? = none := by
  rw [← contains_eq_false_iff]
  constructor
  · rintro ⟨id, next, added⟩
    exact (addEdge_eq_ok.mp added).1
  · intro fits
    exact ⟨_, _, addEdge_eq_ok.mpr ⟨fits, rfl, rfl⟩⟩

theorem exists_map_iff {α β : Type} {called : Except NetworkFault (α × Builder)} {f : α → β} :
    (∃ a next, called.map (Prod.map f id) = .ok (a, next)) ↔ ∃ a next, called = .ok (a, next) := by
  rcases called with fault | ⟨a, next⟩
  · simp [Except.map]
  · simp [Except.map, Prod.map]

theorem exists_make_iff (indexed : b.Indexed) (title : String) :
    (∃ given next, call.make b = .ok (given, next)) ↔ call.Fits (b.build title) := by
  cases call with
  | node name position =>
    refine exists_map_iff.trans ?_
    show _ ↔ position.isFinite = true ∧ b.nodeByName[name]? = none
    rw [← contains_eq_false_iff]
    constructor
    · rintro ⟨id, next, added⟩
      obtain ⟨finite, new, -⟩ := addNode_eq_ok.mp added
      exact ⟨finite, new⟩
    · rintro ⟨finite, new⟩
      exact ⟨_, _, addNode_eq_ok.mpr ⟨finite, new, rfl, rfl⟩⟩
  | edge name source target length => exact exists_map_iff.trans exists_addEdge_iff
  | edgeByName name source target length =>
    refine exists_map_iff.trans ?_
    constructor
    · rintro ⟨id, next, called⟩
      obtain ⟨s, t, hs, ht, added⟩ := addEdgeByName_eq_ok.mp called
      obtain ⟨-, -, length, new⟩ := exists_addEdge_iff.mp ⟨id, next, added⟩
      exact ⟨Option.isSome_of_eq_some hs, Option.isSome_of_eq_some ht, length, new⟩
    · rintro ⟨source, target, length, new⟩
      obtain ⟨s, hs⟩ := Option.isSome_iff_exists.mp source
      obtain ⟨t, ht⟩ := Option.isSome_iff_exists.mp target
      have hs' : s.index < b.nodes.size := by simpa using indexed.nodes.index_lt hs
      have ht' : t.index < b.nodes.size := by simpa using indexed.nodes.index_lt ht
      obtain ⟨id, next, added⟩ := exists_addEdge_iff.mpr ⟨hs', ht', length, new⟩
      exact ⟨id, next, addEdgeByName_eq_ok.mpr ⟨s, t, hs, ht, added⟩⟩

/-! ## What a call adds -/

/-- A node or an edge with a name of its own is added behind all others. -/
inductive Adds (b : Builder) : Given → Builder → Prop
  | node (n : Node) : b.nodeByName.contains n.name = false →
      Adds b (.node ⟨b.nodes.size⟩) (b.withNode n)
  | edge (e : Edge) : b.edgeByName.contains e.name = false →
      Adds b (.edge ⟨b.edges.size⟩) (b.withEdge e)

theorem make_adds (title : String) (made : call.make b = .ok (given, next)) :
    b.Adds given next ∧ call.HeldIn (next.build title) given := by
  cases call with
  | node name position =>
    obtain ⟨⟨id, _⟩, added, same⟩ := map_eq_ok.mp made
    cases same
    obtain ⟨-, new, rfl, rfl⟩ := addNode_eq_ok.mp added
    exact ⟨.node _ new, Array.getElem?_push_size⟩
  | edge name source target length =>
    obtain ⟨⟨id, _⟩, added, same⟩ := map_eq_ok.mp made
    cases same
    obtain ⟨⟨-, -, -, new⟩, rfl, rfl⟩ := addEdge_eq_ok.mp added
    exact ⟨.edge _ new, Array.getElem?_push_size⟩
  | edgeByName name source target length =>
    obtain ⟨⟨id, _⟩, called, same⟩ := map_eq_ok.mp made
    cases same
    obtain ⟨s, t, hs, ht, added⟩ := addEdgeByName_eq_ok.mp called
    obtain ⟨⟨-, -, -, new⟩, rfl, rfl⟩ := addEdge_eq_ok.mp added
    exact ⟨.edge _ new, s, t, hs, ht, Array.getElem?_push_size⟩

theorem Reachable.make (reachable : b.Reachable) (made : call.make b = .ok (given, next)) :
    next.Reachable := by
  cases call with
  | node name position =>
    obtain ⟨⟨id, _⟩, added, same⟩ := map_eq_ok.mp made
    cases same
    exact .node reachable added
  | edge name source target length =>
    obtain ⟨⟨id, _⟩, added, same⟩ := map_eq_ok.mp made
    cases same
    exact .edge reachable added
  | edgeByName name source target length =>
    obtain ⟨⟨id, _⟩, called, same⟩ := map_eq_ok.mp made
    cases same
    exact .edgeByName reachable called

theorem getElem?_push_of_some {α : Type} {xs : Array α} {i : Nat} {a : α} (h : xs[i]? = some a)
    (x : α) : (xs.push x)[i]? = some a := by
  obtain ⟨inside, rfl⟩ := Array.getElem?_eq_some_iff.mp h
  exact Array.getElem?_push_lt inside

theorem getElem?_insert_of_some {α : Type} {places : Std.HashMap String α} {name new : String}
    {a : α} (h : places[name]? = some a) (fresh : places.contains new = false) (x : α) :
    (places.insert new x)[name]? = some a := by
  have other : new ≠ name := by
    rintro rfl
    rw [contains_eq_false_iff, h] at fresh
    cases fresh
  rw [Std.HashMap.getElem?_insert, if_neg (by simpa using other), h]

theorem Adds.heldIn {later : Given} (adds : b.Adds later next)
    (held : call.HeldIn (b.build title) given) : call.HeldIn (next.build title) given := by
  cases adds with
  | node n new =>
    match call, given, held with
    | .node .., .node _, held => exact getElem?_push_of_some held _
    | .edge .., .edge _, held => exact held
    | .edgeByName .., .edge _, ⟨s, t, hs, ht, held⟩ =>
      exact ⟨s, t, getElem?_insert_of_some hs new _, getElem?_insert_of_some ht new _, held⟩
  | edge e new =>
    match call, given, held with
    | .node .., .node _, held => exact held
    | .edge .., .edge _, held => exact getElem?_push_of_some held _
    | .edgeByName .., .edge _, ⟨s, t, hs, ht, held⟩ =>
      exact ⟨s, t, hs, ht, getElem?_push_of_some held _⟩

/-! ## One call after another -/

/-- The numbers given out are those of the nodes and edges there are, each in its turn, and what was
asked for stands at them. The calls that succeeded have the same record on their own. -/
structure Record.Kept (title : String) (r : Record) : Prop where
  reachable : r.builder.Reachable
  nodeIds : r.granted.filterMap (·.2.node?) = (r.builder.build title).nodeIds
  edgeIds : r.granted.filterMap (·.2.edge?) = (r.builder.build title).edgeIds
  held : ∀ {call given}, (call, given) ∈ r.granted → call.HeldIn (r.builder.build title) given
  alone : record (r.granted.map (·.1)) = r

theorem nodeIds_withNode (b : Builder) (n : Node) :
    ((b.withNode n).build title).nodeIds = (b.build title).nodeIds ++ [⟨b.nodes.size⟩] := by
  show (List.range (b.nodes.push n).size).map Id.mk = (List.range b.nodes.size).map Id.mk ++ _
  rw [Array.size_push, List.range_succ, List.map_append, List.map_singleton]

theorem edgeIds_withEdge (b : Builder) (e : Edge) :
    ((b.withEdge e).build title).edgeIds = (b.build title).edgeIds ++ [⟨b.edges.size⟩] := by
  show (List.range (b.edges.push e).size).map Id.mk = (List.range b.edges.size).map Id.mk ++ _
  rw [Array.size_push, List.range_succ, List.map_append, List.map_singleton]

theorem Record.Kept.step {r : Record} (kept : r.Kept title) (call : Call) :
    (r.step call).Kept title := by
  rw [Record.step]
  split
  · rename_i given next made
    obtain ⟨adds, held⟩ := make_adds title made
    refine ⟨kept.reachable.make made, ?_, ?_, ?_, ?_⟩
    · rw [List.filterMap_append, kept.nodeIds]
      cases adds with
      | node n new => exact (nodeIds_withNode _ n).symm
      | edge e new => exact List.append_nil _
    · rw [List.filterMap_append, kept.edgeIds]
      cases adds with
      | node n new => exact List.append_nil _
      | edge e new => exact (edgeIds_withEdge _ e).symm
    · intro other number granted
      rcases List.mem_append.mp granted with earlier | last
      · exact adds.heldIn (kept.held earlier)
      · cases List.mem_singleton.mp last
        exact held
    · rw [List.map_append, List.map_singleton, record_concat, kept.alone, Record.step, made]
  · exact kept

theorem record_kept (calls : List Call) (title : String) : (record calls).Kept title := by
  induction calls using List.reverseRecOn with
  | nil => exact ⟨.empty, rfl, rfl, nofun, rfl⟩
  | append_singleton calls call ih =>
    rw [record_concat]
    exact ih.step call

/-- What is built after some calls, and what these gave out. -/
structure Recorded (calls : List Call) (net : Network) : Prop where
  columns : Columns.after calls = (record calls).builder.columns
  /-- The next call does to the columns what it does to the builder, and fails where that fails. -/
  next (call : Call) : call.change.run (Columns.after calls) =
    (record calls).builder.answer (call.make (record calls).builder)
  accepts (call : Call) :
    (∃ given next, call.make (record calls).builder = .ok (given, next)) ↔ call.Fits net
  atomic {call : Call} {fault : NetworkFault} {c : Columns} :
    call.change.run (Columns.after calls) = (.error fault, c) → c = Columns.after calls
  alone : record ((record calls).granted.map (·.1)) = record calls
  nodeIds : (record calls).granted.filterMap (·.2.node?) = net.nodeIds
  edgeIds : (record calls).granted.filterMap (·.2.edge?) = net.edgeIds
  held {call : Call} {given : Given} :
    (call, given) ∈ (record calls).granted → call.HeldIn net given
  nodeNames {name : String} {n : NodeId} :
    net.findNode? name = some n ↔ (net.nodes[n.index]?).map (·.name) = some name
  edgeNames {name : String} {e : EdgeId} :
    net.findEdge? name = some e ↔ (net.edge? e).map (·.name) = some name
  edges {e : EdgeId} {edge : Edge} : net.edge? e = some edge →
    edge.source.index < net.nodeCount ∧ edge.target.index < net.nodeCount ∧
      edge.length.isFinite = true ∧ 0 ≤ edge.length

theorem recorded (calls : List Call) (title : String) :
    Recorded calls ((record calls).builder.build title) := by
  have kept := record_kept calls title
  have indexed := kept.reachable.indexed
  constructor
  case columns => exact after_columns calls
  case next =>
    intro call
    rw [after_columns, change_columns]
  case accepts =>
    intro call
    exact exists_make_iff indexed title
  case atomic =>
    intro call fault c failed
    rw [after_columns] at failed ⊢
    exact columns_of_failed failed
  case alone => exact kept.alone
  case nodeIds => exact kept.nodeIds
  case edgeIds => exact kept.edgeIds
  case held => exact kept.held
  case nodeNames =>
    intro name n
    refine (indexed.nodes name n).trans ?_
    rw [List.getElem?_map, Array.getElem?_toList]
    rfl
  case edgeNames =>
    intro name e
    refine (indexed.edges name e).trans ?_
    rw [List.getElem?_map, Array.getElem?_toList]
    rfl
  case edges =>
    intro e edge found
    obtain ⟨source, target, length⟩ := kept.reachable.sound e.index edge found
    have finite := (Bool.and_eq_true_iff.mp length).1
    exact ⟨source, target, finite, Lengths.nonneg_of_isLength length⟩

/-! ## Rows -/

/-- A call that ends what is under way if it fails. -/
def proceed (b : Builder) (call : Call) : Except NetworkFault Builder := (call.make b).map (·.2)

theorem length_granted_le (calls : List Call) (r : Record) :
    (calls.foldl Record.step r).granted.length ≤ r.granted.length + calls.length := by
  induction calls generalizing r with
  | nil => exact Nat.le_refl _
  | cons call calls ih =>
    have step : (r.step call).granted.length ≤ r.granted.length + 1 := by
      rw [Record.step]
      split
      · rw [List.length_append, List.length_singleton]
      · exact Nat.le_succ _
    have later := ih (r.step call)
    rw [List.foldl_cons, List.length_cons]
    omega

/-- Numbers that are given out in turn fill 32 bits as long as there are not too many of them. -/
theorem truncate_of_numbered {k : Entity} {granted : List (Call × Given)}
    {id? : Call × Given → Option (Id k)} {n : Nat}
    (numbered : granted.filterMap id? = (List.range n).map Id.mk)
    (few : granted.length ≤ Id.limit) {id : Id k} (given : id ∈ granted.filterMap id?) :
    Id.truncate id.index = id := by
  have length := granted.length_filterMap_le id?
  rw [numbered, List.length_map, List.length_range] at length
  rw [numbered] at given
  obtain ⟨i, below, rfl⟩ := List.mem_map.mp given
  have bound := (List.mem_range.mp below).trans_le (length.trans few)
  rw [Id.truncate, Nat.mod_eq_of_lt bound]

/-- No number is cut short by 32 bits unless there are more calls than 32 bits can number. -/
theorem truncate_granted (few : calls.length ≤ Id.limit) :
    (∀ n ∈ (record calls).granted.filterMap (·.2.node?), Id.truncate n.index = n) ∧
      ∀ e ∈ (record calls).granted.filterMap (·.2.edge?), Id.truncate e.index = e := by
  have kept := record_kept calls ""
  have length : (record calls).granted.length ≤ 0 + calls.length := length_granted_le calls _
  rw [Nat.zero_add] at length
  exact ⟨fun n => truncate_of_numbered kept.nodeIds (length.trans few),
    fun e => truncate_of_numbered kept.edgeIds (length.trans few)⟩

theorem foldlM_proceed_eq_ok (r : Record) :
    calls.foldlM proceed r.builder = .ok b ↔
      (calls.foldl Record.step r).granted.map (·.1) = r.granted.map (·.1) ++ calls ∧
        b = (calls.foldl Record.step r).builder := by
  induction calls generalizing r with
  | nil =>
    rw [List.append_nil, List.foldlM_nil]
    constructor
    · intro same
      cases same
      exact ⟨rfl, rfl⟩
    · rintro ⟨-, rfl⟩
      rfl
  | cons call calls ih =>
    rw [List.foldlM_cons, List.foldl_cons, proceed]
    cases made : call.make r.builder with
    | error fault =>
      have same : r.step call = r := by rw [Record.step, made]
      constructor
      · nofun
      · rintro ⟨all, -⟩
        -- A call that was refused is missing.
        have missing := length_granted_le calls (r.step call)
        have length := congrArg List.length all
        rw [List.length_append, List.length_map, List.length_map, List.length_cons] at length
        rw [same] at missing length
        omega
    | ok granted =>
      obtain ⟨given, next⟩ := granted
      have step : r.step call = ⟨next, r.granted ++ [(call, given)]⟩ := by rw [Record.step, made]
      rw [step]
      refine (ih ⟨next, r.granted ++ [(call, given)]⟩).trans ?_
      rw [List.map_append, List.map_singleton, List.append_assoc, List.singleton_append]

end Builder

namespace Network

open Builder (Call proceed record)

variable {b next : Builder} {net : Network} {title : String}
  {nodes : List (Csv.Row nodeSchema.columns)} {edges : List (Csv.Row edgeSchema.columns)}

def nodeCall : Csv.Row nodeSchema.columns → Call
  | (name, x, y, ()) => .node name ⟨x, y⟩

def edgeCall : Csv.Row edgeSchema.columns → Call
  | (name, source, target, length, ()) => .edgeByName name source target length

/-- The calls by which tables are read. -/
def rowCalls (nodes : List (Csv.Row nodeSchema.columns)) (edges : List (Csv.Row edgeSchema.columns)) :
    List Call :=
  nodes.map nodeCall ++ edges.map edgeCall

theorem foldlM_addNodeRow (b : Builder) :
    (nodes.map Except.ok).foldlM addNodeRow b = (nodes.map nodeCall).foldlM proceed b := by
  have read (b : Builder) (row : Csv.Row nodeSchema.columns) :
      addNodeRow b (.ok row) = proceed b (nodeCall row) := by
    obtain ⟨name, x, y, ⟨⟩⟩ := row
    show (b.addNode name ⟨x, y⟩).map _ = ((b.addNode name ⟨x, y⟩).map _).map _
    cases b.addNode name ⟨x, y⟩ <;> rfl
  rw [List.foldlM_map, List.foldlM_map]
  simp only [read]

theorem foldlM_addEdgeRow (b : Builder) :
    (edges.map Except.ok).foldlM addEdgeRow b = (edges.map edgeCall).foldlM proceed b := by
  have read (b : Builder) (row : Csv.Row edgeSchema.columns) :
      addEdgeRow b (.ok row) = proceed b (edgeCall row) := by
    obtain ⟨name, source, target, length, ⟨⟩⟩ := row
    show (b.addEdgeByName name source target length).map _ =
      ((b.addEdgeByName name source target length).map _).map _
    cases b.addEdgeByName name source target length <;> rfl
  rw [List.foldlM_map, List.foldlM_map]
  simp only [read]

theorem ofRows_eq_ok :
    ofRows title (nodes.map .ok) (edges.map .ok) = .ok net ↔
      (record (rowCalls nodes edges)).granted.map (·.1) = rowCalls nodes edges ∧
        net = (record (rowCalls nodes edges)).builder.build title := by
  have run : ofRows title (nodes.map .ok) (edges.map .ok) =
      (rowCalls nodes edges).foldlM proceed Builder.empty >>= fun b => .ok (b.build title) := by
    rw [rowCalls, List.foldlM_append, bind_assoc, ofRows, foldlM_addNodeRow]
    simp only [foldlM_addEdgeRow]
    rfl
  have accepted {b : Builder} : (rowCalls nodes edges).foldlM proceed Builder.empty = .ok b ↔
      (record (rowCalls nodes edges)).granted.map (·.1) = rowCalls nodes edges ∧
        b = (record (rowCalls nodes edges)).builder :=
    Builder.foldlM_proceed_eq_ok ⟨.empty, []⟩
  rw [run, bind_eq_ok]
  constructor
  · rintro ⟨b, called, built⟩
    obtain ⟨all, rfl⟩ := accepted.mp called
    cases built
    exact ⟨all, rfl⟩
  · rintro ⟨all, rfl⟩
    exact ⟨_, accepted.mpr ⟨all, rfl⟩, rfl⟩

/-- Rows by which nodes are added are rows of these. -/
theorem row_of_addNodeRow {row : Except Csv.Fault (Csv.Row nodeSchema.columns)}
    (called : addNodeRow b row = .ok next) :
    ∃ n, row = .ok (nodeRow n) ∧ b.nodeByName.contains n.name = false ∧ next = b.withNode n := by
  rcases row with fault | ⟨name, x, y, ⟨⟩⟩
  · cases called
  · obtain ⟨⟨id, _⟩, added, rfl⟩ := map_eq_ok.mp called
    obtain ⟨-, new, -, rfl⟩ := Builder.addNode_eq_ok.mp added
    exact ⟨⟨name, ⟨x, y⟩⟩, rfl, new, rfl⟩

theorem nameAt_of_indexed {n : NodeId} {name : String} (indexed : b.Indexed)
    (found : b.nodeByName[name]? = some n) : nameAt b.nodes.toList n = name := by
  have held := (indexed.nodes name n).mp found
  rw [List.getElem?_map] at held
  rw [nameAt, held, Option.getD_some]

theorem row_of_addEdgeRow {row : Except Csv.Fault (Csv.Row edgeSchema.columns)} (indexed : b.Indexed)
    (called : addEdgeRow b row = .ok next) :
    ∃ e, row = .ok (edgeRow b.nodes.toList e) ∧ b.edgeByName.contains e.name = false ∧
      next = b.withEdge e := by
  rcases row with fault | ⟨name, source, target, length, ⟨⟩⟩
  · cases called
  · obtain ⟨⟨id, _⟩, byName, rfl⟩ := map_eq_ok.mp called
    obtain ⟨s, t, hs, ht, added⟩ := Builder.addEdgeByName_eq_ok.mp byName
    obtain ⟨⟨-, -, -, new⟩, -, rfl⟩ := Builder.addEdge_eq_ok.mp added
    refine ⟨⟨name, s, t, length⟩, ?_, new, rfl⟩
    rw [edgeRow, nameAt_of_indexed indexed hs, nameAt_of_indexed indexed ht]

/-- Rows that were read are those of the nodes and edges of the network, in order. -/
theorem rows_of_ofRows {nodeRows : List (Except Csv.Fault (Csv.Row nodeSchema.columns))}
    {edgeRows : List (Except Csv.Fault (Csv.Row edgeSchema.columns))}
    (h : ofRows title nodeRows edgeRows = .ok net) :
    nodeRows = net.nodes.toList.map (fun n => .ok (nodeRow n)) ∧
      edgeRows = net.edges.toList.map (fun e => .ok (edgeRow net.nodes.toList e)) := by
  obtain ⟨b, nodesAdded, rest⟩ := bind_eq_ok.mp h
  obtain ⟨c, edgesAdded, built⟩ := bind_eq_ok.mp rest
  cases built
  have first : b.Indexed ∧ b.edges = #[] ∧
      [] ++ nodeRows = b.nodes.toList.map (fun n => .ok (nodeRow n)) := by
    apply foldlM_invariant (fun seen b => b.Indexed ∧ b.edges = #[] ∧
      seen = b.nodes.toList.map fun n => .ok (nodeRow n)) _ _ nodesAdded
    · exact ⟨Builder.empty_indexed, rfl, rfl⟩
    · rintro seen b row next ⟨indexed, blank, rfl⟩ added
      obtain ⟨n, rfl, new, rfl⟩ := row_of_addNodeRow added
      exact ⟨indexed.withNode new, blank, by simp [Builder.withNode]⟩
  obtain ⟨indexed, blank, nodeRows⟩ := first
  have second : c.Indexed ∧ c.nodes = b.nodes ∧
      [] ++ edgeRows = c.edges.toList.map (fun e => .ok (edgeRow b.nodes.toList e)) := by
    apply foldlM_invariant (fun seen c => c.Indexed ∧ c.nodes = b.nodes ∧
      seen = c.edges.toList.map fun e => .ok (edgeRow b.nodes.toList e)) _ _ edgesAdded
    · exact ⟨indexed, rfl, by rw [blank]; rfl⟩
    · rintro seen c row next ⟨indexed, same, rfl⟩ added
      obtain ⟨e, rfl, new, rfl⟩ := row_of_addEdgeRow indexed added
      exact ⟨indexed.withEdge new, same, by simp [Builder.withEdge, same]⟩
  obtain ⟨-, same, edgeRows⟩ := second
  rw [← same] at nodeRows edgeRows
  exact ⟨nodeRows, edgeRows⟩

/-- Tables without a row that cannot be read give a network if each of the calls by which they are
read succeeds. It is what these calls build, with nodes and edges in the order of the rows. -/
structure FromRows (title : String) (nodes : List (Csv.Row nodeSchema.columns))
    (edges : List (Csv.Row edgeSchema.columns)) : Prop where
  succeeds {net : Network} : ofRows title (nodes.map .ok) (edges.map .ok) = .ok net ↔
    (record (rowCalls nodes edges)).granted.map (·.1) = rowCalls nodes edges ∧
      net = (record (rowCalls nodes edges)).builder.build title
  inOrder {net : Network} : ofRows title (nodes.map .ok) (edges.map .ok) = .ok net →
    nodes = net.nodes.toList.map nodeRow ∧ edges = net.edges.toList.map (edgeRow net.nodes.toList)

theorem fromRows (title : String) (nodes : List (Csv.Row nodeSchema.columns))
    (edges : List (Csv.Row edgeSchema.columns)) : FromRows title nodes edges := by
  refine ⟨ofRows_eq_ok, fun read => ?_⟩
  obtain ⟨nodeRows, edgeRows⟩ := rows_of_ofRows read
  have parsed {α : Type} : Function.Injective (List.map (Except.ok : α → Except Csv.Fault α)) :=
    List.map_injective_iff.mpr fun _ _ => Except.ok.inj
  constructor
  · apply parsed
    rw [nodeRows, List.map_map]
    rfl
  · apply parsed
    rw [edgeRows, List.map_map]
    rfl

end Network

namespace Builder

/-- Whatever calls are made, those that fail change nothing, and the others number nodes and edges
in the order in which they were made. A name leads to what bears it, and edges run between nodes and
have lengths that are finite and not negative. Tables are read by such calls, all of which have to
succeed. -/
theorem calls_recorded (calls : List Call) (title : String)
    (nodes : List (Csv.Row Network.nodeSchema.columns))
    (edges : List (Csv.Row Network.edgeSchema.columns)) :
    Recorded calls ((record calls).builder.build title) ∧ Network.FromRows title nodes edges :=
  ⟨recorded calls title, Network.fromRows title nodes edges⟩

/-- Calls of which the second repeats a name and the third leads to a node that is not there. -/
def mixedCalls : List Call :=
  [.node "a" ⟨0, 0⟩, .node "a" ⟨1, 0⟩, .edgeByName "ab" "a" "b" 1, .edgeByName "loop" "a" "a" 1]

theorem calls_recorded_sample :
    (record mixedCalls).granted =
        [(.node "a" ⟨0, 0⟩, .node ⟨0⟩), (.edgeByName "loop" "a" "a" 1, .edge ⟨0⟩)] ∧
      Recorded mixedCalls ((record mixedCalls).builder.build "mixed") := by
  have length : isLength 1 = true := by decide
  have origin : (⟨0, 0⟩ : Point).isFinite = true := by decide
  have east : (⟨1, 0⟩ : Point).isFinite = true := by decide
  refine ⟨?_, (calls_recorded mixedCalls "mixed" [] []).1⟩
  simp [mixedCalls, record, Record.step, Call.make, addNode, addEdge, addEdgeByName, resolve, empty,
    Except.map, bind, Except.bind, length, origin, east]

end Builder

end RoadFlow
