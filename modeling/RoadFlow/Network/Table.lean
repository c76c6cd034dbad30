import RoadFlow.Journal
import RoadFlow.Network.Builder

/-!
# Networks from tables

A table of nodes and a table of directed edges between them. The order of the rows numbers nodes
and edges.
-/

namespace RoadFlow.Network

open Csv (Kind Schema)

def nodeSchema : Schema := ⟨"NodeRecord", [⟨"id", .text⟩, ⟨"x", .double⟩, ⟨"y", .double⟩]⟩

def edgeSchema : Schema :=
  ⟨"LinkRecord", [⟨"id", .text⟩, ⟨"from", .text⟩, ⟨"to", .text⟩, ⟨"length", .double⟩]⟩

/-- Adds a row of the node table. -/
def addNodeRow (b : Builder) (row : Except Csv.Fault (Csv.Row nodeSchema.columns)) :
    Except NetworkFault Builder :=
  match row with
  | .error fault => .error (.table fault)
  | .ok (name, x, y, ()) => (b.addNode name ⟨x, y⟩).map (·.2)

/-- Adds a row of the edge table. -/
def addEdgeRow (b : Builder) (row : Except Csv.Fault (Csv.Row edgeSchema.columns)) :
    Except NetworkFault Builder :=
  match row with
  | .error fault => .error (.table fault)
  | .ok (name, source, target, length, ()) => (b.addEdgeByName name source target length).map (·.2)

/-- The network of the rows; the first row that is refused decides. -/
def ofRows (name : String) (nodes : List (Except Csv.Fault (Csv.Row nodeSchema.columns)))
    (edges : List (Except Csv.Fault (Csv.Row edgeSchema.columns))) :
    Except NetworkFault Network := do
  let b ← nodes.foldlM addNodeRow Builder.empty
  let b ← edges.foldlM addEdgeRow b
  return b.build name

def ofTables (name : String) (nodes edges : Csv.Bytes) : Except NetworkFault Network :=
  ofRows name (Csv.rows nodeSchema nodes) (Csv.rows edgeSchema edges)

/-- The name of the network in a file of edges: the file's name without its ending. -/
def nameOfFile (path : Storage.Path) : String :=
  (path.fileName?.map Storage.Path.stem).getD "network"

/-- The network of two files, named after the second. -/
def load (files : Storage.FileTree) (nodes edges : Storage.Path) : Except NetworkFault Network := do
  let nodeFile ← (files.find nodes).mapError .storage
  let edgeFile ← (files.find edges).mapError .storage
  ofRows (nameOfFile edges) (Csv.rowsOfEntry nodeSchema nodeFile)
    (Csv.rowsOfEntry edgeSchema edgeFile)

/-- The record that is made of a network read from tables. -/
def loadRecord (net : Network) : LogRecord :=
  ⟨.debug, "loaded network " ++ Text.quote net.name ++
    s!": {net.nodeCount} nodes, {net.edgeCount} links"⟩

end RoadFlow.Network
