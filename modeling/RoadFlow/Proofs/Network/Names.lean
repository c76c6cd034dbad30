import RoadFlow.Network.Table
import RoadFlow.Proofs.Except
import RoadFlow.Proofs.Network.Construction

/-!
# Names

No two nodes of a network that is built have one name and no two edges have one, so that a name
leads to the node or the edge that bears it and to no other (`Builder.Reachable.indexed`). Tables,
whose edges go by the names of their ends, give the network that they describe
(`Network.ofRows_describes`). A name leads to the number that 32 bits keep unless more than
`Id.limit` nodes or edges are named (`Builder.truncate_granted`).
-/

namespace RoadFlow

namespace Builder

/-- Names lead to the places at which they stand. -/
def Leads {k : Entity} (names : List String) (places : Std.HashMap String (Id k)) : Prop :=
  ∀ (name : String) (id : Id k), places[name]? = some id ↔ names[id.index]? = some name

theorem contains_eq_false_iff {α : Type} {places : Std.HashMap String α} {name : String} :
    places.contains name = false ↔ places[name]? = none := by
  rw [Std.HashMap.contains_eq_isSome_getElem?, Option.isSome_eq_false_iff, Option.isNone_iff_eq_none]

theorem getElem?_concat_eq_some {names : List String} {name other : String} {i : Nat} :
    (names ++ [name])[i]? = some other ↔
      names[i]? = some other ∨ i = names.length ∧ name = other := by
  rcases Nat.lt_trichotomy i names.length with held | rfl | past
  · rw [List.getElem?_append_left held]
    simp [Nat.ne_of_lt held]
  · simp
  · rw [List.getElem?_eq_none (by simpa using Nat.succ_le_of_lt past),
      List.getElem?_eq_none (Nat.le_of_lt past)]
    simp [Nat.ne_of_gt past]

theorem Leads.concat {k : Entity} {names : List String} {places : Std.HashMap String (Id k)}
    {name : String} (leads : Leads names places) (new : places.contains name = false) :
    Leads (names ++ [name]) (places.insert name ⟨names.length⟩) := by
  intro other id
  rw [Std.HashMap.getElem?_insert, getElem?_concat_eq_some, ← leads]
  simp only [beq_iff_eq]
  by_cases same : name = other
  · subst same
    rw [if_pos rfl, contains_eq_false_iff.mp new, Option.some.injEq]
    constructor
    · rintro rfl
      exact .inr ⟨rfl, rfl⟩
    · rintro (found | ⟨last, -⟩)
      · cases found
      · exact congrArg Id.mk last.symm
  · simp [same]

theorem Leads.index_lt {k : Entity} {names : List String} {places : Std.HashMap String (Id k)}
    {name : String} {id : Id k} (leads : Leads names places) (found : places[name]? = some id) :
    id.index < names.length :=
  (List.getElem?_eq_some_iff.mp ((leads name id).mp found)).1

/-- Items are found by their names. -/
theorem Leads.iff {k : Entity} {α : Type} {items : Array α} {nameOf : α → String} {name : String}
    {places : Std.HashMap String (Id k)} {id : Id k}
    (leads : Leads (items.toList.map nameOf) places) :
    places[name]? = some id ↔
      id.index < items.size ∧ (items[id.index]?.map nameOf).getD "" = name := by
  refine (leads name id).trans ?_
  rw [List.getElem?_map, Array.getElem?_toList, Option.map_eq_some_iff]
  constructor
  · rintro ⟨item, held, rfl⟩
    exact ⟨(Array.getElem?_eq_some_iff.mp held).1, by rw [held]; rfl⟩
  · rintro ⟨inside, rfl⟩
    exact ⟨_, Array.getElem?_eq_getElem inside, by rw [Array.getElem?_eq_getElem inside]; rfl⟩

theorem leads_byName {k : Entity} {names : List String} (distinct : names.Nodup) :
    Leads names (byName names : Std.HashMap String (Id k)) := by
  induction names using List.reverseRecOn with
  | nil => simp [Leads, byName]
  | append_singleton names last ih =>
    rw [List.nodup_append] at distinct
    have new : last ∉ names := fun h => distinct.2.2 _ h _ (by simp) rfl
    rw [byName_concat]
    exact (ih distinct.1).concat (Bool.eq_false_iff.mpr (mt contains_byName.mp new))

/-- The names of nodes lead to nodes, and those of edges to edges. -/
structure Indexed (b : Builder) : Prop where
  nodes : Leads (b.nodes.toList.map (·.name)) b.nodeByName
  edges : Leads (b.edges.toList.map (·.name)) b.edgeByName

theorem empty_indexed : Indexed .empty := by
  constructor <;> simp [Leads, empty]

theorem Indexed.withNode {b : Builder} {n : Node} (indexed : b.Indexed)
    (new : b.nodeByName.contains n.name = false) : (b.withNode n).Indexed := by
  have more := indexed.nodes.concat new
  exact ⟨by simpa [Builder.withNode] using more, indexed.edges⟩

theorem Indexed.withEdge {b : Builder} {e : Edge} (indexed : b.Indexed)
    (new : b.edgeByName.contains e.name = false) : (b.withEdge e).Indexed := by
  have more := indexed.edges.concat new
  exact ⟨indexed.nodes, by simpa [Builder.withEdge] using more⟩

theorem Reachable.indexed {b : Builder} (h : Reachable b) : b.Indexed := by
  induction h with
  | empty => exact empty_indexed
  | node _ call ih =>
    obtain ⟨-, new, -, rfl⟩ := addNode_eq_ok.mp call
    exact ih.withNode new
  | edge _ call ih =>
    obtain ⟨⟨-, -, -, new⟩, -, rfl⟩ := addEdge_eq_ok.mp call
    exact ih.withEdge new
  | edgeByName _ call ih =>
    obtain ⟨s, t, -, -, call⟩ := addEdgeByName_eq_ok.mp call
    obtain ⟨⟨-, -, -, new⟩, -, rfl⟩ := addEdge_eq_ok.mp call
    exact ih.withEdge new

end Builder

namespace Network

variable {net : Network} {n : NodeId} {name : String}

/-- A name is that of a node of the network. -/
def NamesNode (net : Network) (name : String) (n : NodeId) : Prop :=
  n.index < net.nodeCount ∧ net.nodeName n = name

/-- A name is that of an edge of the network. -/
def NamesEdge (net : Network) (name : String) (e : EdgeId) : Prop :=
  e.index < net.edgeCount ∧ net.edgeName e = name

instance : Decidable (net.NamesNode name n) := inferInstanceAs (Decidable (_ ∧ _))

instance {e : EdgeId} : Decidable (net.NamesEdge name e) := inferInstanceAs (Decidable (_ ∧ _))

theorem Built.findNode?_iff (built : net.Built) :
    net.findNode? name = some n ↔ net.NamesNode name n := by
  obtain ⟨b, title, reachable, rfl⟩ := built
  exact reachable.indexed.nodes.iff

theorem Built.findEdge?_iff {e : EdgeId} (built : net.Built) :
    net.findEdge? name = some e ↔ net.NamesEdge name e := by
  obtain ⟨b, title, reachable, rfl⟩ := built
  exact reachable.indexed.edges.iff

/-- No two nodes have one name. -/
theorem Built.namesNode_unique {m : NodeId} (built : net.Built) (first : net.NamesNode name m)
    (second : net.NamesNode name n) : m = n := by
  have found := built.findNode?_iff.mpr first
  rw [built.findNode?_iff.mpr second] at found
  exact (Option.some.inj found).symm

theorem Built.namesEdge_unique {e f : EdgeId} (built : net.Built) (first : net.NamesEdge name e)
    (second : net.NamesEdge name f) : e = f := by
  have found := built.findEdge?_iff.mpr first
  rw [built.findEdge?_iff.mpr second] at found
  exact (Option.some.inj found).symm

/-! ## Tables -/

theorem getElem?_byName {k : Entity} {names : List String} (distinct : names.Nodup)
    {name : String} {i : Nat} (here : names[i]? = some name) :
    (Builder.byName names : Std.HashMap String (Id k))[name]? = some ⟨i⟩ := by
  exact (Builder.leads_byName distinct name ⟨i⟩).mpr here

/-- The row of a node. -/
def nodeRow (n : Node) : Csv.Row nodeSchema.columns := (n.name, n.position.x, n.position.y, ())

def nameAt (nodes : List Node) (n : NodeId) : String := (nodes[n.index]?.map (·.name)).getD ""

/-- The row of an edge between some nodes. -/
def edgeRow (nodes : List Node) (e : Edge) : Csv.Row edgeSchema.columns :=
  (e.name, nameAt nodes e.source, nameAt nodes e.target, e.length, ())

variable {nodes : List Node} {edges : List Edge}

theorem resolve_filled (distinct : (nodes.map (·.name)).Nodup) (inside : n.index < nodes.length)
    (edges : List Edge) : (Builder.filled nodes edges).resolve (nameAt nodes n) = .ok n := by
  have found : (Builder.filled nodes edges).nodeByName[nameAt nodes n]? = some n := by
    apply getElem?_byName distinct
    simp [nameAt, inside]
  exact Builder.resolve_eq_ok.mpr found

theorem addNodeRows (distinct : (nodes.map (·.name)).Nodup)
    (positions : ∀ n ∈ nodes, n.position.isFinite = true) :
    (nodes.map fun n => Except.ok (nodeRow n)).foldlM addNodeRow Builder.empty =
      .ok (Builder.filled nodes []) := by
  induction nodes using List.reverseRecOn with
  | nil => rfl
  | append_singleton nodes n ih =>
    rw [List.map_append, List.nodup_append] at distinct
    have new : n.name ∉ nodes.map (·.name) := fun h => distinct.2.2 _ h _ (by simp) rfl
    have added : addNodeRow (Builder.filled nodes []) (.ok (nodeRow n)) =
        .ok (Builder.filled (nodes ++ [n]) []) :=
      congrArg (Except.map Prod.snd) (Builder.addNode_filled new (positions n (by simp)) [])
    have earlier := ih distinct.1 fun m hm => positions m (by simp [hm])
    rw [List.map_append, List.foldlM_append, bind_eq_ok]
    exact ⟨_, earlier, by rw [List.map_singleton, List.foldlM_cons, added]; rfl⟩

theorem addEdgeRows (nodeNames : (nodes.map (·.name)).Nodup)
    (distinct : (edges.map (·.name)).Nodup)
    (lengths : ∀ e ∈ edges, Builder.isLength e.length = true)
    (ends : ∀ e ∈ edges, e.source.index < nodes.length ∧ e.target.index < nodes.length) :
    (edges.map fun e => Except.ok (edgeRow nodes e)).foldlM addEdgeRow (Builder.filled nodes []) =
      .ok (Builder.filled nodes edges) := by
  induction edges using List.reverseRecOn with
  | nil => rfl
  | append_singleton edges e ih =>
    rw [List.map_append, List.nodup_append] at distinct
    have new : e.name ∉ edges.map (·.name) := fun h => distinct.2.2 _ h _ (by simp) rfl
    obtain ⟨source, target⟩ := ends e (by simp)
    have named : (Builder.filled nodes edges).addEdgeByName e.name (nameAt nodes e.source)
        (nameAt nodes e.target) e.length =
          .ok (⟨edges.length⟩, Builder.filled nodes (edges ++ [e])) := by
      rw [Builder.addEdgeByName, resolve_filled nodeNames source, resolve_filled nodeNames target]
      exact Builder.addEdge_filled new (lengths e (by simp)) ⟨source, target⟩
    have added : addEdgeRow (Builder.filled nodes edges) (.ok (edgeRow nodes e)) =
        .ok (Builder.filled nodes (edges ++ [e])) := congrArg (Except.map Prod.snd) named
    have earlier := ih distinct.1 (fun f hf => lengths f (by simp [hf]))
      fun f hf => ends f (by simp [hf])
    rw [List.map_append, List.foldlM_append, bind_eq_ok]
    exact ⟨_, earlier, by rw [List.map_singleton, List.foldlM_cons, added]; rfl⟩

/-- Tables of what can be built give the network of it. -/
theorem ofRows_describes (h : Builder.Describes nodes edges) (title : String) :
    ofRows title (nodes.map fun n => .ok (nodeRow n)) (edges.map fun e => .ok (edgeRow nodes e)) =
      .ok ((Builder.filled nodes edges).build title) := by
  have nodesAdded := addNodeRows h.nodeNames h.positions
  have edgesAdded := addEdgeRows h.nodeNames h.edgeNames h.lengths h.ends
  rw [ofRows, bind_eq_ok]
  exact ⟨_, nodesAdded, bind_eq_ok.mpr ⟨_, edgesAdded, rfl⟩⟩

end Network

end RoadFlow
