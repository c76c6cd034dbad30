import RoadFlow.Proofs.Csv.RoundTrip
import RoadFlow.Proofs.Decimal.Single
import RoadFlow.Report.Files

/-!
# What the files of a report say

The files of a report say some lines (`ReportLines.In`): each is read as the columns of its table and
a record for every line, whose fields are those of the line. Flows, losses and deviations are read
from their fields as the numbers they are. Files that hold the texts of their tables say the lines
from which the texts were made (`ReportLines.in_of_texts`).
-/

namespace RoadFlow

open Storage (FileTree Path)
open Text.Utf8 (encode)

/-! ## Fields -/

/-- The text of a single-precision number, from which it is read. -/
def Csv.Writes (x : Float32) (field : String) : Prop :=
  field = singleText x ∧ Csv.Kind.read .single field = .ok x

theorem Csv.writes_singleText (x : Float32) : Csv.Writes x (singleText x) :=
  ⟨rfl, readSingle_singleText x⟩

def Metrics.IsRow (m : Metrics Float32) (fields : List String) : Prop :=
  ∃ loss mad, fields = [toString m.step, loss, mad] ∧ Csv.Writes m.loss loss ∧ Csv.Writes m.mad mad

def PairLine.IsRow (l : PairLine) (fields : List String) : Prop :=
  ∃ flow, fields = [toString l.origin, toString l.destination, toString l.hour, flow] ∧
    Csv.Writes l.flow flow

def EdgeLine.IsRow (l : EdgeLine) (fields : List String) : Prop :=
  ∃ flow, fields = [l.edge, toString l.hour, flow] ∧ Csv.Writes l.flow flow

def ClusterLine.IsRow (l : ClusterLine) (fields : List String) : Prop :=
  fields = [toString l.cluster, l.node]

def TripLine.IsRow (l : TripLine) (fields : List String) : Prop :=
  fields = [toString l.number, l.origin, l.destination, l.departure, l.returnTime]

/-! ## Files -/

/-- A file of columns and a row for each of some lines, which are read as its records. -/
def Storage.FileTree.Lists {β : Type} (files : FileTree) (path : Path) (columns : List String)
    (isRow : β → List String → Prop) (lines : List β) : Prop :=
  ∃ bytes rows, files.read path = .ok bytes ∧ List.Forall₂ isRow lines rows ∧
    bytes = encode (Csv.writeRecords (columns :: rows)) ∧
    (Csv.records bytes).map Csv.Record.fields = (columns :: rows).map (·.map encode)

/-- A file that was written with a row for each line lists the lines. -/
theorem Storage.FileTree.lists_of_read {β : Type} {files : FileTree} {path : Path}
    {columns : List String} {isRow : β → List String → Prop} {lines : List β}
    {fields : β → List String}
    (held : files.read path = .ok (encode (Csv.writeRecords (columns :: lines.map fields))))
    (right : ∀ l, isRow l (fields l)) (filled : ∀ l, fields l ≠ []) (named : columns ≠ [])
    (unmarked : ∃ first ∈ (encode (Csv.writeRecord columns)).head?, first ≠ 0xef) :
    files.Lists path columns isRow lines := by
  refine ⟨_, lines.map fields, held, ?_, rfl, Csv.fields_records ?_ ?_⟩
  · rw [List.forall₂_map_right_iff]
    exact List.forall₂_same.mpr fun l _ => right l
  · intro record among
    rcases List.mem_cons.mp among with rfl | below
    · exact named
    · obtain ⟨l, -, rfl⟩ := List.mem_map.mp below
      exact filled l
  · obtain ⟨first, front, other⟩ := unmarked
    rw [Csv.writeRecords_cons, Text.Utf8.encode_append, List.head?_append,
      Option.mem_def.mp front, Option.some_or]
    exact fun same => other (Option.some.inj same)

/-- A line has one row only, so the file is known from its lines. -/
theorem Storage.FileTree.Lists.read {β : Type} {files : FileTree} {path : Path}
    {columns : List String} {isRow : β → List String → Prop} {lines : List β}
    {fields : β → List String} (lists : files.Lists path columns isRow lines)
    (only : ∀ l row, isRow l row → row = fields l) :
    files.read path = .ok (encode (Csv.writeRecords (columns :: lines.map fields))) := by
  obtain ⟨bytes, rows, held, each, rfl, -⟩ := lists
  have same : rows = lines.map fields := by
    clear held
    induction each with
    | nil => rfl
    | cons row _ ih => rw [only _ _ row, ih, List.map_cons]
  rw [held, same]

theorem Metrics.eq_of_isRow {m : Metrics Float32} {row : List String} (h : m.IsRow row) :
    row = ReportTable.metricsFields m := by
  obtain ⟨_, _, rfl, ⟨rfl, -⟩, ⟨rfl, -⟩⟩ := h
  rfl

theorem PairLine.eq_of_isRow {l : PairLine} {row : List String} (h : l.IsRow row) :
    row = ReportTable.odFields l := by
  obtain ⟨_, rfl, ⟨rfl, -⟩⟩ := h
  rfl

/-! ## Reports -/

/-- The lines of all tables of a report. -/
structure ReportLines where
  metrics : List (Metrics Float32)
  flows : List PairLine
  edges : List EdgeLine
  clusters : List ClusterLine
  trips : List TripLine

namespace ReportLines

def empty : ReportLines := ⟨[], [], [], [], []⟩

/-- The files in a directory say some lines. -/
structure In (lines : ReportLines) (files : FileTree) (directory : Path) : Prop where
  metrics : files.Lists (directory.join "fit_metrics.csv") ["step", "loss", "mad"]
    Metrics.IsRow lines.metrics
  flows : files.Lists (directory.join "od_flows.csv") ["origin", "destination", "hour", "flow"]
    PairLine.IsRow lines.flows
  edges : files.Lists (directory.join "link_flows.csv") ["edge_id", "hour", "flow"]
    EdgeLine.IsRow lines.edges
  clusters : files.Lists (directory.join "clusters.csv") ["cluster", "node_id"]
    ClusterLine.IsRow lines.clusters
  trips : files.Lists (directory.join "trips.csv")
    ["trip_id", "origin_node", "destination_node", "departure", "return"] TripLine.IsRow lines.trips

/-- The rows of a table. -/
def rows (lines : ReportLines) : ReportTable → List (List String)
  | .metrics => lines.metrics.map ReportTable.metricsFields
  | .flows => lines.flows.map ReportTable.odFields
  | .edges => lines.edges.map ReportTable.edgeFields
  | .clusters => lines.clusters.map ReportTable.clusterFields
  | .trips => lines.trips.map ReportTable.tripFields

/-- The text of a table: its header and its rows. -/
def text (lines : ReportLines) (t : ReportTable) : String :=
  Csv.writeRecords (t.columns :: lines.rows t)

theorem text_empty : empty.text = ReportTable.header := by
  funext t
  have nothing : empty.rows t = [] := by cases t <;> rfl
  rw [text, nothing, Csv.writeRecords_cons]
  exact String.append_empty

variable {lines : ReportLines} {files : FileTree} {directory : Path}

theorem lists_flows (lines : ReportLines)
    (held : files.read (ReportFiles.pathOf directory .flows) = .ok (encode (lines.text .flows))) :
    files.Lists (directory.join "od_flows.csv") ["origin", "destination", "hour", "flow"]
      PairLine.IsRow lines.flows :=
  FileTree.lists_of_read held (fun l => ⟨_, rfl, Csv.writes_singleText l.flow⟩)
    (fun _ => List.cons_ne_nil _ _) (List.cons_ne_nil _ _) ⟨111, by decide, by decide⟩

theorem lists_metrics (lines : ReportLines)
    (held : files.read (ReportFiles.pathOf directory .metrics) =
      .ok (encode (lines.text .metrics))) :
    files.Lists (directory.join "fit_metrics.csv") ["step", "loss", "mad"]
      Metrics.IsRow lines.metrics :=
  FileTree.lists_of_read held
    (fun m => ⟨_, _, rfl, Csv.writes_singleText m.loss, Csv.writes_singleText m.mad⟩)
    (fun _ => List.cons_ne_nil _ _) (List.cons_ne_nil _ _) ⟨115, by decide, by decide⟩

/-- Files that hold the texts of their tables say the lines. -/
theorem in_of_texts (held : ∀ t, files.read (ReportFiles.pathOf directory t) =
    .ok (encode (lines.text t))) : lines.In files directory where
  metrics := lines.lists_metrics (held .metrics)
  flows := lines.lists_flows (held .flows)
  edges := FileTree.lists_of_read (held .edges) (fun l => ⟨_, rfl, Csv.writes_singleText l.flow⟩)
    (fun _ => List.cons_ne_nil _ _) (List.cons_ne_nil _ _) ⟨101, by decide, by decide⟩
  clusters := FileTree.lists_of_read (held .clusters) (fun _ => rfl)
    (fun _ => List.cons_ne_nil _ _) (List.cons_ne_nil _ _) ⟨99, by decide, by decide⟩
  trips := FileTree.lists_of_read (held .trips) (fun _ => rfl)
    (fun _ => List.cons_ne_nil _ _) (List.cons_ne_nil _ _) ⟨116, by decide, by decide⟩

end ReportLines

end RoadFlow
