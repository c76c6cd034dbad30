import RoadFlow.Csv.Write
import RoadFlow.Report.Sink
import RoadFlow.Storage.FileTree
import RoadFlow.Text.Utf8

/-!
# Reports as files

A report of five tables in one directory. Rows wait in a buffer until their table is flushed;
closing a report flushes what is left. The table of flows holds one snapshot: writing another starts
the file anew.
-/

namespace RoadFlow

open Storage (FileTree Path)

/-- The tables of a report in the order in which they are opened and flushed. -/
inductive ReportTable where
  | metrics
  | flows
  | edges
  | clusters
  | trips
  deriving DecidableEq

namespace ReportTable

def all : List ReportTable := [metrics, flows, edges, clusters, trips]

def fileName : ReportTable → String
  | metrics => "fit_metrics.csv"
  | flows => "od_flows.csv"
  | edges => "link_flows.csv"
  | clusters => "clusters.csv"
  | trips => "trips.csv"

def columns : ReportTable → List String
  | metrics => ["step", "loss", "mad"]
  | flows => ["origin", "destination", "hour", "flow"]
  | edges => ["edge_id", "hour", "flow"]
  | clusters => ["cluster", "node_id"]
  | trips => ["trip_id", "origin_node", "destination_node", "departure", "return"]

def header (t : ReportTable) : String := Csv.writeRecord t.columns

end ReportTable

inductive ReportFault where
  | storage (fault : Storage.Fault)
  | table (fault : Storage.Fault)
  | shape (fault : ShapeFault)
  deriving DecidableEq

def ReportFault.message : ReportFault → String
  | .storage fault => "I/O error: " ++ fault.message
  | .table fault => "CSV write error: " ++ fault.message
  | .shape fault => fault.message

/-- The text that waits for each table. -/
structure Buffers where
  metrics : String
  flows : String
  edges : String
  clusters : String
  trips : String
  deriving DecidableEq

namespace Buffers

def get (b : Buffers) : ReportTable → String
  | .metrics => b.metrics
  | .flows => b.flows
  | .edges => b.edges
  | .clusters => b.clusters
  | .trips => b.trips

def set (b : Buffers) (t : ReportTable) (text : String) : Buffers :=
  match t with
  | .metrics => { b with metrics := text }
  | .flows => { b with flows := text }
  | .edges => { b with edges := text }
  | .clusters => { b with clusters := text }
  | .trips => { b with trips := text }

def headers : Buffers where
  metrics := ReportTable.metrics.header
  flows := ReportTable.flows.header
  edges := ReportTable.edges.header
  clusters := ReportTable.clusters.header
  trips := ReportTable.trips.header

end Buffers

/-! ## Rows as fields -/

namespace ReportTable

def metricsFields (m : Metrics Float32) : List String :=
  [toString m.step, singleText m.loss, singleText m.mad]

def odFields (r : PairLine) : List String :=
  [toString r.origin, toString r.destination, toString r.hour, singleText r.flow]

def edgeFields (r : EdgeLine) : List String := [r.edge, toString r.hour, singleText r.flow]

def clusterFields (r : ClusterLine) : List String := [toString r.cluster, r.node]

def tripFields (r : TripLine) : List String :=
  [toString r.number, r.origin, r.destination, r.departure, r.returnTime]

end ReportTable

/-! ## Writing -/

/-- A report under way in a directory of the tree. -/
structure ReportFiles where
  files : FileTree
  directory : Path
  buffers : Buffers

namespace ReportFiles

def pathOf (directory : Path) (t : ReportTable) : Path := directory.join t.fileName

/-- The tree with empty files for the given tables, up to the first that cannot be opened. -/
def createEach (files : FileTree) (directory : Path) :
    List ReportTable → FileTree × List ReportTable × Except Storage.Fault Unit
  | [] => (files, [], .ok ())
  | t :: rest =>
    match files.write (pathOf directory t) [] with
    | .error fault => (files, [], .error fault)
    | .ok files =>
      let (files, opened, result) := createEach files directory rest
      (files, t :: opened, result)

/-- Moves the waiting text of a table into its file. -/
def flush (r : ReportFiles) (t : ReportTable) : ReportFiles × Except ReportFault Unit :=
  let path := pathOf r.directory t
  let result := do
    let held ← r.files.read path
    r.files.write path (held ++ Text.Utf8.encode (r.buffers.get t))
  match result with
  | .error fault => (r, .error (.storage fault))
  | .ok files => ({ r with files, buffers := r.buffers.set t "" }, .ok ())

/-- Flushes tables up to the first that fails. -/
def flushEach (r : ReportFiles) : List ReportTable → ReportFiles × Except ReportFault Unit
  | [] => (r, .ok ())
  | t :: rest =>
    match r.flush t with
    | (r, .error fault) => (r, .error fault)
    | (r, .ok ()) => flushEach r rest

def finish (r : ReportFiles) : ReportFiles × Except ReportFault Unit := r.flushEach ReportTable.all

/-- The tree with all that still waits in its place, as far as it can be. -/
def close (r : ReportFiles) (tables : List ReportTable) : FileTree :=
  (tables.foldl (fun r t => (r.flush t).1) r).files

/-- Opens a report. If a table cannot be opened, those before it keep their headers. -/
def create (files : FileTree) (directory : Path) : FileTree × Except ReportFault ReportFiles :=
  match files.makeDirectories directory with
  | (files, .error fault) => (files, .error (.storage fault))
  | (files, .ok ()) =>
    match createEach files directory ReportTable.all with
    | (files, _, .ok ()) => (files, .ok ⟨files, directory, .headers⟩)
    | (files, opened, .error fault) =>
      (close ⟨files, directory, .headers⟩ opened, .error (.table fault))

/-- Puts rows behind those that wait for a table. -/
def append (r : ReportFiles) (t : ReportTable) (rows : List (List String)) : ReportFiles :=
  { r with buffers := r.buffers.set t (r.buffers.get t ++ Csv.writeRecords rows) }

/-- Starts the file of a table anew. -/
def restart (r : ReportFiles) (t : ReportTable) : ReportFiles × Except ReportFault Unit :=
  match r.files.write (pathOf r.directory t) [] with
  | .error fault => (r, .error (.table fault))
  | .ok files => ({ r with files, buffers := r.buffers.set t t.header }, .ok ())

/-- Puts a snapshot in place of the one written before. -/
def replaceFlows (r : ReportFiles) (rows : List PairLine) : ReportFiles × Except ReportFault Unit :=
  match r.flush .flows with
  | (r, .error fault) => (r, .error fault)
  | (r, .ok ()) =>
    match r.restart .flows with
    | (r, .error fault) => (r, .error fault)
    | (r, .ok ()) => (r.append .flows (rows.map ReportTable.odFields)).flush .flows

/-- Reports go to files. -/
def sink : Sink ReportFiles ReportFault where
  writeMetrics r m := (r.append .metrics [ReportTable.metricsFields m], .ok ())
  writeFlows r rows := r.replaceFlows rows
  writeEdges r rows := (r.append .edges (rows.map ReportTable.edgeFields), .ok ())
  writeClusters r rows := (r.append .clusters (rows.map ReportTable.clusterFields), .ok ())
  writeTrips r rows := (r.append .trips (rows.map ReportTable.tripFields), .ok ())
  finish r := r.finish

end ReportFiles

end RoadFlow
