import RoadFlow.Proofs.Network.Construction

/-!
# Builders in columns

What a builder knows of its nodes and edges is kept in columns, one for each thing known, and in the
places of the names. A call writes these one after another, once nothing can fail any more: what it
does to them is what it does to the builder, and a call that fails has written nothing
(`Builder.addNode_columns`, `Builder.addEdgeByName_columns`).
-/

namespace RoadFlow

namespace Builder

structure Columns where
  nodePositions : Array Point
  nodeNames : Array String
  nodeByName : Std.HashMap String NodeId
  edgeSources : Array NodeId
  edgeTargets : Array NodeId
  edgeLengths : Array Float
  edgeNames : Array String
  edgeByName : Std.HashMap String EdgeId

/-- The columns of the nodes and edges that a builder holds. -/
def columns (b : Builder) : Columns where
  nodePositions := b.nodes.map (·.position)
  nodeNames := b.nodes.map (·.name)
  nodeByName := b.nodeByName
  edgeSources := b.edges.map (·.source)
  edgeTargets := b.edges.map (·.target)
  edgeLengths := b.edges.map (·.length)
  edgeNames := b.edges.map (·.name)
  edgeByName := b.edgeByName

/-- Writes that may stop at a fault, with what was written until then. -/
abbrev Change (α : Type) := ExceptT NetworkFault (StateM Columns) α

namespace Columns

def addNode (name : String) (position : Point) : Change NodeId := do
  if !position.isFinite then throw (.badPosition name)
  else
    let c ← get
    if c.nodeByName.contains name then throw (.duplicateNode name)
    else
      let id : NodeId := ⟨c.nodePositions.size⟩
      modify fun c => { c with nodeByName := c.nodeByName.insert name id }
      modify fun c => { c with nodePositions := c.nodePositions.push position }
      modify fun c => { c with nodeNames := c.nodeNames.push name }
      return id

/-- Refuses an end that is none of the nodes. -/
def checkEnd (n : NodeId) : Change Unit := do
  let c ← get
  if c.nodePositions.size ≤ n.index then throw (.noSuchNode n c.nodePositions.size)

def addEdge (name : String) (source target : NodeId) (length : Float) : Change EdgeId := do
  checkEnd source
  checkEnd target
  if !isLength length then throw (.badLength name length)
  else
    let c ← get
    if c.edgeByName.contains name then throw (.duplicateEdge name)
    else
      let id : EdgeId := ⟨c.edgeSources.size⟩
      modify fun c => { c with edgeByName := c.edgeByName.insert name id }
      modify fun c => { c with edgeSources := c.edgeSources.push source }
      modify fun c => { c with edgeTargets := c.edgeTargets.push target }
      modify fun c => { c with edgeLengths := c.edgeLengths.push length }
      modify fun c => { c with edgeNames := c.edgeNames.push name }
      return id

def resolve (name : String) : Change NodeId := do
  let c ← get
  match c.nodeByName[name]? with
  | some id => return id
  | none => throw (.unknownNode name)

def addEdgeByName (name source target : String) (length : Float) : Change EdgeId := do
  let source ← resolve source
  let target ← resolve target
  addEdge name source target length

end Columns

/-- What a call comes to on the columns: those of the next builder, or as they were if it fails. -/
def answer {α : Type} (b : Builder) :
    Except NetworkFault (α × Builder) → Except NetworkFault α × Columns
  | .ok (a, next) => (.ok a, next.columns)
  | .error fault => (.error fault, b.columns)

variable {b : Builder}

section Run

variable {α : Type} {c : Columns}

theorem run_get_bind (f : Columns → Change α) : (get >>= f).run c = (f c).run c := rfl

theorem run_modify_bind (write : Columns → Columns) (f : PUnit → Change α) :
    (modify write >>= f).run c = (f ⟨⟩).run (write c) := rfl

end Run

theorem addNode_columns (name : String) (position : Point) :
    (Columns.addNode name position).run b.columns = b.answer (b.addNode name position) := by
  have names : b.columns.nodeByName = b.nodeByName := rfl
  unfold Columns.addNode Builder.addNode
  split
  · rfl
  · rw [run_get_bind, names]
    split
    · rfl
    · simp only [run_modify_bind, columns, answer, Array.size_map, Array.map_push]
      rfl

theorem checkEnd_columns (n : NodeId) :
    (Columns.checkEnd n).run b.columns =
      if b.nodes.size ≤ n.index then (.error (.noSuchNode n b.nodes.size), b.columns)
      else (.ok (), b.columns) := by
  have count : b.columns.nodePositions.size = b.nodes.size := Array.size_map
  rw [Columns.checkEnd, run_get_bind, count]
  split <;> rfl

theorem addEdge_columns (name : String) (source target : NodeId) (length : Float) :
    (Columns.addEdge name source target length).run b.columns =
      b.answer (b.addEdge name source target length) := by
  have names : b.columns.edgeByName = b.edgeByName := rfl
  unfold Columns.addEdge Builder.addEdge
  rw [run_bind, checkEnd_columns]
  by_cases hs : b.nodes.size ≤ source.index
  · rw [if_pos hs, List.find?_cons_of_pos (by simpa using hs)]
    rfl
  · rw [if_neg hs, List.find?_cons_of_neg (by simpa using hs)]
    dsimp only
    rw [run_bind, checkEnd_columns]
    by_cases ht : b.nodes.size ≤ target.index
    · rw [if_pos ht, List.find?_cons_of_pos (by simpa using ht)]
      rfl
    · rw [if_neg ht, List.find?_cons_of_neg (by simpa using ht), List.find?_nil]
      dsimp only
      split
      · rfl
      · rw [run_get_bind, names]
        split
        · rfl
        · simp only [run_modify_bind, columns, answer, Array.size_map, Array.map_push]
          rfl

theorem resolve_columns (name : String) :
    (Columns.resolve name).run b.columns = (b.resolve name, b.columns) := by
  have names : b.columns.nodeByName = b.nodeByName := rfl
  rw [Columns.resolve, run_get_bind, names, Builder.resolve]
  cases b.nodeByName[name]? <;> rfl

theorem addEdgeByName_columns (name source target : String) (length : Float) :
    (Columns.addEdgeByName name source target length).run b.columns =
      b.answer (b.addEdgeByName name source target length) := by
  rw [Columns.addEdgeByName, run_bind, resolve_columns, Builder.addEdgeByName]
  cases b.resolve source with
  | error fault => rfl
  | ok s =>
    dsimp only
    rw [run_bind, resolve_columns]
    cases b.resolve target with
    | error fault => rfl
    | ok t => exact addEdge_columns name s t length

end Builder

end RoadFlow
