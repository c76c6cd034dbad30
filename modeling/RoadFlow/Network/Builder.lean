import RoadFlow.Network.Fault

/-!
# Building networks

Nodes and edges are added one at a time and checked as they come, so that a finished network is
sound. They are numbered in turn; the numbers fill 32 bits as long as there are no more than
`Id.limit` of either. The edges leaving each node are laid out by a counting sort on their sources.
-/

namespace RoadFlow

structure Builder where
  nodes : Array Node
  edges : Array Edge
  nodeByName : Std.HashMap String NodeId
  edgeByName : Std.HashMap String EdgeId

namespace Builder

def empty : Builder := ⟨#[], #[], ∅, ∅⟩

/-- Adds a node under the next number. -/
def addNode (b : Builder) (name : String) (position : Point) :
    Except NetworkFault (NodeId × Builder) :=
  if !position.isFinite then .error (.badPosition name)
  else if b.nodeByName.contains name then .error (.duplicateNode name)
  else
    let id : NodeId := ⟨b.nodes.size⟩
    .ok (id, { b with
      nodes := b.nodes.push ⟨name, position⟩
      nodeByName := b.nodeByName.insert name id })

/-- Lengths are finite and not negative. -/
def isLength (x : Float) : Bool := x.isFinite && !(x < 0)

/-- Adds an edge under the next number. -/
def addEdge (b : Builder) (name : String) (source target : NodeId) (length : Float) :
    Except NetworkFault (EdgeId × Builder) :=
  match [source, target].find? fun n => b.nodes.size ≤ n.index with
  | some n => .error (.noSuchNode n b.nodes.size)
  | none =>
    if !isLength length then .error (.badLength name length)
    else if b.edgeByName.contains name then .error (.duplicateEdge name)
    else
      let id : EdgeId := ⟨b.edges.size⟩
      .ok (id, { b with
        edges := b.edges.push ⟨name, source, target, length⟩
        edgeByName := b.edgeByName.insert name id })

def resolve (b : Builder) (name : String) : Except NetworkFault NodeId :=
  match b.nodeByName[name]? with
  | some id => .ok id
  | none => .error (.unknownNode name)

/-- Adds an edge between nodes given by name. -/
def addEdgeByName (b : Builder) (name source target : String) (length : Float) :
    Except NetworkFault (EdgeId × Builder) := do
  let source ← b.resolve source
  let target ← b.resolve target
  b.addEdge name source target length

/-- The running totals of some counts, the first count's own included. -/
def runningTotals (counts : Array Nat) : Array Nat :=
  (counts.foldl (fun (totals, sum) n => (totals.push (sum + n), sum + n)) (#[], 0)).1

/-- For each node, one place behind it, the number of edges that leave it. -/
def outCounts (nodeCount : Nat) (edges : Array Edge) : Array Nat :=
  edges.foldl (fun counts e => counts.modify (e.source.index + 1) (· + 1))
    (Array.replicate (nodeCount + 1) 0)

/-- The slices under way: where the next edge of each node goes, and the places filled so far. -/
structure Scatter where
  cursor : Array Nat
  slots : Array EdgeId

/-- Puts an edge into the next place of its source. -/
def Scatter.place (s : Scatter) (id : EdgeId) (source : NodeId) : Scatter :=
  { cursor := s.cursor.modify source.index (· + 1)
    slots := s.slots.setIfInBounds (s.cursor.getD source.index 0) id }

/-- The edges sorted by source, those of one source in the order of their numbers. -/
def scatter (starts : Array Nat) (edges : Array Edge) : Array EdgeId :=
  let start : Scatter := ⟨starts, Array.replicate edges.size Id.invalid⟩
  ((List.range edges.size).foldl (fun s i =>
    match edges[i]? with
    | some e => s.place ⟨i⟩ e.source
    | none => s) start).slots

/-- The finished network. -/
def build (b : Builder) (name : String) : Network :=
  let outStart := runningTotals (outCounts b.nodes.size b.edges)
  { name
    nodes := b.nodes
    edges := b.edges
    outStart
    outEdges := scatter outStart b.edges
    nodeByName := b.nodeByName
    edgeByName := b.edgeByName }

end Builder

end RoadFlow
