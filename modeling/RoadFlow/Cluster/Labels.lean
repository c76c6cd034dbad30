import RoadFlow.Cluster.Clustering

/-!
# Cluster labels from tables

A table that gives the cluster of every node. A node that is named again takes its later label.
-/

namespace RoadFlow.Labels

open Csv (Kind Schema)

def schema : Schema := ⟨"LabelRecord", [⟨"node_id", .text⟩, ⟨"cluster", .natural (twoTo 32)⟩]⟩

/-- Takes a row of the table into the labels read so far. -/
def addRow (net : Network) (labels : Array (Option Nat))
    (row : Except Csv.Fault (Csv.Row schema.columns)) : Except MatrixFault (Array (Option Nat)) :=
  match row with
  | .error fault => .error (.table fault)
  | .ok (name, label, ()) =>
    match net.findNode? name with
    | some node => .ok (labels.setIfInBounds node.index (some label))
    | none => .error (.unknownNode name)

/-- The labels of all nodes, or the first node without one. -/
def complete (net : Network) (labels : Array (Option Nat)) : Except MatrixFault (List Nat) :=
  labels.toList.zipIdx.mapM fun (label, i) =>
    match label with
    | some label => .ok label
    | none => .error (.missingLabel (net.nodeName ⟨i⟩))

/-- The label of each node in the order of the nodes. -/
def ofRows (net : Network) (rows : List (Except Csv.Fault (Csv.Row schema.columns))) :
    Except MatrixFault (List Nat) := do
  let labels ← rows.foldlM (addRow net) (Array.replicate net.nodeCount none)
  complete net labels

def ofTable (net : Network) (bytes : Csv.Bytes) : Except MatrixFault (List Nat) :=
  ofRows net (Csv.rows schema bytes)

def load (files : Storage.FileTree) (net : Network) (path : Storage.Path) :
    Except MatrixFault (List Nat) := do
  let entry ← (files.find path).mapError .storage
  ofRows net (Csv.rowsOfEntry schema entry)

end RoadFlow.Labels
