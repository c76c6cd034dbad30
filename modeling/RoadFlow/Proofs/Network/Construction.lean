import Mathlib.Data.List.Induction
import RoadFlow.Proofs.Except
import RoadFlow.Proofs.Id
import RoadFlow.Proofs.Network.Layout

/-!
# Networks that are built

What the calls of a builder keep of it, and what a network built after any of them is sure of: the
ends of its edges are nodes of it, the lengths are lengths, and the layout is right
(`Network.Built.sound`).
-/

namespace RoadFlow

namespace Builder

/-- The builders that calls lead to. A call that fails leaves the builder it had. -/
inductive Reachable : Builder → Prop
  | empty : Reachable .empty
  | node {b next : Builder} {name : String} {position : Point} {id : NodeId} :
      Reachable b → b.addNode name position = .ok (id, next) → Reachable next
  | edge {b next : Builder} {name : String} {source target : NodeId} {length : Float}
      {id : EdgeId} :
      Reachable b → b.addEdge name source target length = .ok (id, next) → Reachable next
  | edgeByName {b next : Builder} {name source target : String} {length : Float} {id : EdgeId} :
      Reachable b → b.addEdgeByName name source target length = .ok (id, next) → Reachable next

/-- Edges run between nodes and have lengths. -/
def Sound (b : Builder) : Prop :=
  ∀ (i : Nat) (e : Edge), b.edges[i]? = some e →
    e.source.index < b.nodes.size ∧ e.target.index < b.nodes.size ∧ isLength e.length = true

/-- A builder with one more node. -/
def withNode (b : Builder) (n : Node) : Builder :=
  { b with
    nodes := b.nodes.push n
    nodeByName := b.nodeByName.insert n.name ⟨b.nodes.size⟩ }

/-- A builder with one more edge. -/
def withEdge (b : Builder) (e : Edge) : Builder :=
  { b with
    edges := b.edges.push e
    edgeByName := b.edgeByName.insert e.name ⟨b.edges.size⟩ }

theorem addNode_eq_ok {b next : Builder} {name : String} {position : Point} {id : NodeId} :
    b.addNode name position = .ok (id, next) ↔
      position.isFinite = true ∧ b.nodeByName.contains name = false ∧
        id = ⟨b.nodes.size⟩ ∧ next = b.withNode ⟨name, position⟩ := by
  rw [addNode]
  split
  · rename_i infinite
    constructor
    · nofun
    · rintro ⟨finite, -⟩
      simp [finite] at infinite
  · split
    · rename_i known
      constructor
      · nofun
      · rintro ⟨-, new, -⟩
        rw [new] at known
        cases known
    · rename_i finite new
      rw [Bool.not_eq_true, Bool.not_eq_false'] at finite
      rw [Bool.not_eq_true] at new
      constructor
      · intro added
        cases added
        exact ⟨finite, new, rfl, rfl⟩
      · rintro ⟨-, -, rfl, rfl⟩
        rfl

theorem addEdge_eq_ok {b next : Builder} {name : String} {source target : NodeId}
    {length : Float} {id : EdgeId} :
    b.addEdge name source target length = .ok (id, next) ↔
      (source.index < b.nodes.size ∧ target.index < b.nodes.size ∧ isLength length = true ∧
        b.edgeByName.contains name = false) ∧
      id = ⟨b.edges.size⟩ ∧ next = b.withEdge ⟨name, source, target, length⟩ := by
  rw [addEdge]
  split
  · rename_i n outside
    constructor
    · nofun
    · rintro ⟨⟨hs, ht, -⟩, -⟩
      have := List.find?_some outside
      have := List.mem_of_find?_eq_some outside
      grind
  · rename_i ends
    have inside := List.find?_eq_none.mp ends
    split
    · rename_i wrong
      constructor
      · nofun
      · rintro ⟨⟨-, -, length, -⟩, -⟩
        simp [length] at wrong
    · split
      · rename_i known
        constructor
        · nofun
        · rintro ⟨⟨-, -, -, new⟩, -⟩
          rw [new] at known
          cases known
      · rename_i length new
        rw [Bool.not_eq_true, Bool.not_eq_false'] at length
        rw [Bool.not_eq_true] at new
        constructor
        · intro added
          cases added
          refine ⟨⟨?_, ?_, length, new⟩, rfl, rfl⟩
          · simpa using inside source (by simp)
          · simpa using inside target (by simp)
        · rintro ⟨-, rfl, rfl⟩
          rfl

theorem resolve_eq_ok {b : Builder} {name : String} {id : NodeId} :
    b.resolve name = .ok id ↔ b.nodeByName[name]? = some id := by
  rw [resolve]
  split
  · rename_i held
    rw [held, Except.ok.injEq, Option.some.injEq]
  · rename_i unknown
    rw [unknown]
    constructor <;> nofun

theorem addEdgeByName_eq_ok {b next : Builder} {name source target : String} {length : Float}
    {id : EdgeId} :
    b.addEdgeByName name source target length = .ok (id, next) ↔
      ∃ s t, b.nodeByName[source]? = some s ∧ b.nodeByName[target]? = some t ∧
        b.addEdge name s t length = .ok (id, next) := by
  simp only [addEdgeByName, bind_eq_ok, resolve_eq_ok, exists_and_left]

theorem empty_sound : Sound .empty := by
  intro i e h
  simp [empty] at h

theorem Sound.addNode {b next : Builder} {name : String} {position : Point} {id : NodeId}
    (sound : b.Sound) (h : b.addNode name position = .ok (id, next)) : next.Sound := by
  obtain ⟨-, -, -, rfl⟩ := addNode_eq_ok.mp h
  intro i e he
  obtain ⟨source, target, length⟩ := sound i e he
  rw [withNode, Array.size_push]
  exact ⟨by omega, by omega, length⟩

theorem Sound.addEdge {b next : Builder} {name : String} {source target : NodeId} {length : Float}
    {id : EdgeId} (sound : b.Sound) (h : b.addEdge name source target length = .ok (id, next)) :
    next.Sound := by
  obtain ⟨⟨hs, ht, hl, -⟩, -, rfl⟩ := addEdge_eq_ok.mp h
  intro i e he
  rw [withEdge, Array.getElem?_push] at he
  split at he
  · cases he
    exact ⟨hs, ht, hl⟩
  · exact sound i e he

theorem Reachable.sound {b : Builder} (h : Reachable b) : b.Sound := by
  induction h with
  | empty => exact empty_sound
  | node _ call ih => exact ih.addNode call
  | edge _ call ih => exact ih.addEdge call
  | edgeByName _ call ih =>
    obtain ⟨s, t, -, -, call⟩ := addEdgeByName_eq_ok.mp call
    exact ih.addEdge call

/-! ## Building what is described -/

/-- Names mapped to the places at which they stand. -/
def byName {k : Entity} (names : List String) : Std.HashMap String (Id k) :=
  names.zipIdx.foldl (fun places (name, i) => places.insert name ⟨i⟩) ∅

theorem byName_concat {k : Entity} (names : List String) (name : String) :
    (byName (names ++ [name]) : Std.HashMap String (Id k)) =
      (byName names).insert name ⟨names.length⟩ := by
  simp [byName, List.zipIdx_append]

theorem contains_byName {k : Entity} {names : List String} {name : String} :
    (byName names : Std.HashMap String (Id k)).contains name = true ↔ name ∈ names := by
  induction names using List.reverseRecOn with
  | nil => simp [byName]
  | append_singleton names last ih =>
    rw [byName_concat, Std.HashMap.contains_insert, Bool.or_eq_true, ih, beq_iff_eq,
      List.mem_append, List.mem_singleton, or_comm, eq_comm]

/-- The builder that holds some nodes and edges. -/
def filled (nodes : List Node) (edges : List Edge) : Builder :=
  ⟨nodes.toArray, edges.toArray, byName (nodes.map (·.name)), byName (edges.map (·.name))⟩

/-- What can be built: names occur once, positions and lengths are finite, and edges run between the
nodes. -/
structure Describes (nodes : List Node) (edges : List Edge) : Prop where
  nodeNames : (nodes.map (·.name)).Nodup
  edgeNames : (edges.map (·.name)).Nodup
  positions : ∀ n ∈ nodes, n.position.isFinite = true
  lengths : ∀ e ∈ edges, isLength e.length = true
  ends : ∀ e ∈ edges, e.source.index < nodes.length ∧ e.target.index < nodes.length

theorem addNode_filled {nodes : List Node} {n : Node} (new : n.name ∉ nodes.map (·.name))
    (finite : n.position.isFinite = true) (edges : List Edge) :
    (filled nodes edges).addNode n.name n.position =
      .ok (⟨nodes.length⟩, filled (nodes ++ [n]) edges) := by
  have absent := mt (contains_byName (k := .node)).mp new
  have place := byName_concat (k := .node) (nodes.map (·.name)) n.name
  rw [List.length_map] at place
  rw [addNode, filled, if_neg (by simp [finite]), if_neg absent]
  simp [filled, place]

theorem addEdge_filled {edges : List Edge} {e : Edge} {nodes : List Node}
    (new : e.name ∉ edges.map (·.name)) (length : isLength e.length = true)
    (ends : e.source.index < nodes.length ∧ e.target.index < nodes.length) :
    (filled nodes edges).addEdge e.name e.source e.target e.length =
      .ok (⟨edges.length⟩, filled nodes (edges ++ [e])) := by
  have absent := mt (contains_byName (k := .edge)).mp new
  have place := byName_concat (k := .edge) (edges.map (·.name)) e.name
  rw [List.length_map] at place
  have inside : ([e.source, e.target].find? fun n => decide (nodes.length ≤ n.index)) = none := by
    simp [ends.1, ends.2]
  rw [addEdge, filled]
  simp only [List.size_toArray, inside]
  rw [if_neg (by simp [length]), if_neg absent]
  simp [filled, place]

theorem reachable_filled {nodes : List Node} {edges : List Edge} (h : Describes nodes edges) :
    Reachable (filled nodes edges) := by
  obtain ⟨nodeNames, edgeNames, positions, lengths, ends⟩ := h
  induction edges using List.reverseRecOn with
  | nil =>
    clear edgeNames lengths ends
    induction nodes using List.reverseRecOn with
    | nil => exact .empty
    | append_singleton nodes n ih =>
      rw [List.map_append, List.nodup_append] at nodeNames
      have new : n.name ∉ nodes.map (·.name) := fun h => nodeNames.2.2 _ h _ (by simp) rfl
      exact .node (ih nodeNames.1 fun m hm => positions m (by simp [hm]))
        (addNode_filled new (positions n (by simp)) [])
  | append_singleton edges e ih =>
    rw [List.map_append, List.nodup_append] at edgeNames
    have new : e.name ∉ edges.map (·.name) := fun h => edgeNames.2.2 _ h _ (by simp) rfl
    exact .edge (ih edgeNames.1 (fun f hf => lengths f (by simp [hf]))
      fun f hf => ends f (by simp [hf]))
      (addEdge_filled new (lengths e (by simp)) (ends e (by simp)))

end Builder

namespace Network

/-- The networks that builders accept. -/
def Built (net : Network) : Prop := ∃ b name, Builder.Reachable b ∧ net = b.build name

/-- Whatever can be described can be built. -/
theorem built_filled {nodes : List Node} {edges : List Edge}
    (h : Builder.Describes nodes edges) (name : String) :
    ((Builder.filled nodes edges).build name).Built :=
  ⟨_, name, Builder.reachable_filled h, rfl⟩

/-- Two nodes joined by parallel edges, by one without length back and by a loop, and a third
apart. -/
def sample : Network :=
  (Builder.filled
    [⟨"a", ⟨0, 0⟩⟩, ⟨"b", ⟨1, 0⟩⟩, ⟨"c", ⟨0, 1⟩⟩]
    [⟨"ab", ⟨0⟩, ⟨1⟩, 1⟩, ⟨"again", ⟨0⟩, ⟨1⟩, 1⟩, ⟨"loop", ⟨1⟩, ⟨1⟩, 0⟩, ⟨"ba", ⟨1⟩, ⟨0⟩, 0⟩]).build
    "sample"

theorem sample_built : sample.Built :=
  built_filled ⟨by decide, by decide, by decide, by decide, by decide⟩ "sample"

/-- Edges run between nodes and have lengths, and those that leave a node are laid out in order. -/
structure Sound (net : Network) : Prop where
  source_lt : ∀ {e edge}, net.edge? e = some edge → edge.source.index < net.nodeCount
  target_lt : ∀ {e edge}, net.edge? e = some edge → edge.target.index < net.nodeCount
  isLength : ∀ {e edge}, net.edge? e = some edge → Builder.isLength edge.length = true
  edgesFrom_eq : ∀ n, net.edgesFrom n = net.edgeIds.filter (net.leaves n)

theorem Built.sound {net : Network} (built : net.Built) : net.Sound := by
  obtain ⟨b, name, reachable, rfl⟩ := built
  have sound := reachable.sound
  refine ⟨?_, ?_, ?_, ?_⟩
  · intro e edge h
    exact (sound e.index edge h).1
  · intro e edge h
    exact (sound e.index edge h).2.1
  · intro e edge h
    exact (sound e.index edge h).2.2
  · exact Builder.edgesFrom_build b name fun i e h => (sound i e h).1

theorem edge?_isSome {net : Network} {e : EdgeId} :
    (net.edge? e).isSome = true ↔ e.index < net.edgeCount := by
  simp [edge?, edgeCount]

theorem mem_edgeIds {net : Network} {e : EdgeId} : e ∈ net.edgeIds ↔ e.index < net.edgeCount := by
  rcases e with ⟨i⟩
  simp [edgeIds]

theorem leaves_iff {net : Network} {n : NodeId} {e : EdgeId} :
    net.leaves n e = true ↔ ∃ edge, net.edge? e = some edge ∧ edge.source = n := by
  simp [leaves, Option.any_eq_true]

theorem Sound.mem_edgesFrom {net : Network} (sound : net.Sound) {n : NodeId} {e : EdgeId} :
    e ∈ net.edgesFrom n ↔ ∃ edge, net.edge? e = some edge ∧ edge.source = n := by
  rw [sound.edgesFrom_eq, List.mem_filter, leaves_iff, mem_edgeIds, ← edge?_isSome]
  constructor
  · exact fun h => h.2
  · rintro ⟨edge, he, hs⟩
    exact ⟨by simp [he], edge, he, hs⟩

theorem Sound.ascending_edgesFrom {net : Network} (sound : net.Sound) (n : NodeId) :
    Id.Ascending (net.edgesFrom n) := by
  rw [sound.edgesFrom_eq]
  exact (Id.ascending_range _).filter _

end Network

end RoadFlow
