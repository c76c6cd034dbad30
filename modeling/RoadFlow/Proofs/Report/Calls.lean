import Mathlib.Data.List.Induction
import RoadFlow.Proofs.Report.Files
import RoadFlow.Proofs.Report.Lines

/-!
# Calls to a report

What the tables of a report say after any calls: the lines of all of them in their order, but of the
flows those of the last call only (`ReportLines.ofCalls`). A sink whose every call does to the tables
what it says (`Sink.Keeps`) has them in its files whenever it is finished (`Sink.Keeps.leaves`), and
`ReportFiles.sink` is such a sink.
-/

namespace RoadFlow

open Storage (FileTree Path)
open Text.Utf8 (encode)

/-- A call to a report. -/
inductive ReportCall where
  | metrics (m : Metrics Float32)
  | flows (rows : List PairLine)
  | edges (rows : List EdgeLine)
  | clusters (rows : List ClusterLine)
  | trips (rows : List TripLine)
  | finish

namespace ReportCall

/-- The table to which a call adds rows, and the rows. -/
def added? : ReportCall → Option (ReportTable × List (List String))
  | metrics m => some (.metrics, [ReportTable.metricsFields m])
  | edges rows => some (.edges, rows.map ReportTable.edgeFields)
  | clusters rows => some (.clusters, rows.map ReportTable.clusterFields)
  | trips rows => some (.trips, rows.map ReportTable.tripFields)
  | flows _ | finish => none

variable {ω ε : Type}

def make (sink : Sink ω ε) (w : ω) : ReportCall → ω × Except ε Unit
  | metrics m => sink.writeMetrics w m
  | flows rows => sink.writeFlows w rows
  | edges rows => sink.writeEdges w rows
  | clusters rows => sink.writeClusters w rows
  | trips rows => sink.writeTrips w rows
  | finish => sink.finish w

/-- Makes calls up to the first that is refused. -/
def makeEach (sink : Sink ω ε) (w : ω) : List ReportCall → ω × Except ε Unit
  | [] => (w, .ok ())
  | call :: calls =>
    match call.make sink w with
    | (w, .error fault) => (w, .error fault)
    | (w, .ok ()) => makeEach sink w calls

end ReportCall

/-! ## Lines -/

namespace ReportLines

variable {lines : ReportLines} {call : ReportCall} {t : ReportTable}

/-- The lines after a call. Those that it brings stand behind the ones before, but a snapshot takes
the place of the one before. -/
def after (lines : ReportLines) : ReportCall → ReportLines
  | .metrics m => { lines with metrics := lines.metrics ++ [m] }
  | .flows rows => { lines with flows := rows }
  | .edges rows => { lines with edges := lines.edges ++ rows }
  | .clusters rows => { lines with clusters := lines.clusters ++ rows }
  | .trips rows => { lines with trips := lines.trips ++ rows }
  | .finish => lines

/-- The lines of all calls. -/
def ofCalls (calls : List ReportCall) : ReportLines := calls.foldl after empty

theorem ofCalls_concat (calls : List ReportCall) (call : ReportCall) :
    ofCalls (calls ++ [call]) = (ofCalls calls).after call := by
  rw [ofCalls, List.foldl_append]
  rfl

/-- A call that adds rows to a table changes no other. -/
theorem text_after_added {rows : List (List String)} (added : call.added? = some (t, rows)) :
    (lines.after call).text =
      Function.update lines.text t (lines.text t ++ Csv.writeRecords rows) := by
  have more : (lines.after call).rows =
      Function.update lines.rows t (lines.rows t ++ rows) := by
    funext u
    cases call <;> cases added <;> cases u <;> simp [after, ReportLines.rows]
  funext u
  rw [text, more]
  by_cases same : u = t
  · subst same
    rw [Function.update_self, Function.update_self, ← List.cons_append, Csv.writeRecords_append,
      text]
  · rw [Function.update_of_ne same, Function.update_of_ne same, text]

theorem text_after_flows (lines : ReportLines) (rows : List PairLine) :
    (lines.after (.flows rows)).text =
      Function.update lines.text .flows (ReportFiles.flowsText rows) := by
  funext u
  cases u <;> rfl

end ReportLines

/-! ## Sinks -/

section

variable {ω ε : Type} {sink : Sink ω ε} {tree : ω → FileTree} {directory : Path}
  {Holds : ω → (ReportTable → String) → Prop} {w w' : ω} {lines : ReportLines}

/-- What a sink that writes files in a directory leaves there, beginning with a fresh report. -/
structure Sink.Leaves (sink : Sink ω ε) (tree : ω → FileTree) (directory : Path) (fresh : ω) :
    Prop where
  succeeds (calls : List ReportCall) :
    ∃ w, ReportCall.makeEach sink fresh calls = (w, .ok ())
  /-- Once it is finished, the files say the lines of all calls. -/
  finished {calls : List ReportCall} {w : ω} :
    ReportCall.makeEach sink fresh (calls ++ [.finish]) = (w, .ok ()) →
    (ReportLines.ofCalls calls).In (tree w) directory
  /-- A snapshot is in its file at once. -/
  snapshot {calls : List ReportCall} {rows : List PairLine} {w : ω} :
    ReportCall.makeEach sink fresh (calls ++ [.flows rows]) = (w, .ok ()) →
    (tree w).Lists (directory.join "od_flows.csv") ["origin", "destination", "hour", "flow"]
      PairLine.IsRow rows
  /-- Finishing again changes no file. -/
  again {calls : List ReportCall} {w : ω} :
    ReportCall.makeEach sink fresh (calls ++ [.finish]) = (w, .ok ()) →
    ∃ w', sink.finish w = (w', .ok ()) ∧
      ∀ l, FileTree.entry? (tree w') l = FileTree.entry? (tree w) l

/-- Every call succeeds and does to the texts of the tables what it says. -/
structure Sink.Keeps (sink : Sink ω ε) (tree : ω → FileTree) (directory : Path)
    (Holds : ω → (ReportTable → String) → Prop) : Prop where
  add {texts : ReportTable → String} {w : ω} {call : ReportCall} {t : ReportTable}
    {rows : List (List String)} : Holds w texts → call.added? = some (t, rows) →
    ∃ w', call.make sink w = (w', .ok ()) ∧
      Holds w' (Function.update texts t (texts t ++ Csv.writeRecords rows))
  flows {texts : ReportTable → String} {w : ω} (rows : List PairLine) : Holds w texts →
    ∃ w', sink.writeFlows w rows = (w', .ok ()) ∧
      Holds w' (Function.update texts .flows (ReportFiles.flowsText rows)) ∧
      (tree w').read (ReportFiles.pathOf directory .flows) =
        .ok (encode (ReportFiles.flowsText rows))
  finish {texts : ReportTable → String} {w : ω} : Holds w texts →
    ∃ w', sink.finish w = (w', .ok ()) ∧ Holds w' texts ∧
      (∀ t, (tree w').read (ReportFiles.pathOf directory t) = .ok (encode (texts t))) ∧
      ∃ w'', sink.finish w' = (w'', .ok ()) ∧
        ∀ l, FileTree.entry? (tree w'') l = FileTree.entry? (tree w') l

theorem Sink.Keeps.make (keeps : sink.Keeps tree directory Holds) (holds : Holds w lines.text)
    (call : ReportCall) :
    ∃ w', call.make sink w = (w', .ok ()) ∧ Holds w' (lines.after call).text := by
  cases added : call.added? with
  | some place =>
    rw [ReportLines.text_after_added added]
    exact keeps.add holds added
  | none =>
    cases call with
    | flows rows =>
      obtain ⟨w', made, holds', -⟩ := keeps.flows rows holds
      exact ⟨w', made, lines.text_after_flows rows ▸ holds'⟩
    | finish =>
      obtain ⟨w', made, holds', -⟩ := keeps.finish holds
      exact ⟨w', made, holds'⟩
    | metrics | edges | clusters | trips => cases added

theorem ReportCall.makeEach_append {before after : List ReportCall}
    (made : makeEach sink w before = (w', .ok ())) :
    makeEach sink w (before ++ after) = makeEach sink w' after := by
  induction before generalizing w with
  | nil =>
    cases made
    rfl
  | cons call before ih =>
    rw [makeEach] at made
    rw [List.cons_append, makeEach]
    split at made
    · cases made
    · exact ih made

theorem ReportCall.makeEach_singleton (call : ReportCall) :
    makeEach sink w [call] = call.make sink w := by
  rw [makeEach]
  rcases call.make sink w with ⟨next, fault | done⟩ <;> rfl

/-- What each call does, all of them do in turn. -/
theorem Sink.Keeps.makeEach (keeps : sink.Keeps tree directory Holds)
    (fresh : Holds w ReportTable.header) (calls : List ReportCall) :
    ∃ w', ReportCall.makeEach sink w calls = (w', .ok ()) ∧
      Holds w' (ReportLines.ofCalls calls).text := by
  induction calls using List.reverseRecOn with
  | nil => exact ⟨w, rfl, ReportLines.text_empty ▸ fresh⟩
  | append_singleton calls call ih =>
    obtain ⟨next, earlier, holds⟩ := ih
    obtain ⟨w', last, holds'⟩ := keeps.make holds call
    refine ⟨w', ?_, ReportLines.ofCalls_concat calls call ▸ holds'⟩
    rw [ReportCall.makeEach_append earlier, ReportCall.makeEach_singleton, last]

theorem Sink.Keeps.leaves (keeps : sink.Keeps tree directory Holds)
    (fresh : Holds w ReportTable.header) : sink.Leaves tree directory w where
  succeeds calls := by
    obtain ⟨w', made, -⟩ := keeps.makeEach fresh calls
    exact ⟨w', made⟩
  finished {calls w'} made := by
    obtain ⟨next, earlier, holds⟩ := keeps.makeEach fresh calls
    obtain ⟨last, finished, -, held, -⟩ := keeps.finish holds
    rw [ReportCall.makeEach_append earlier, ReportCall.makeEach_singleton, ReportCall.make,
      finished] at made
    cases made
    exact ReportLines.in_of_texts held
  snapshot {calls rows w'} made := by
    obtain ⟨next, earlier, holds⟩ := keeps.makeEach fresh calls
    obtain ⟨last, written, -, held⟩ := keeps.flows rows holds
    rw [ReportCall.makeEach_append earlier, ReportCall.makeEach_singleton, ReportCall.make,
      written] at made
    cases made
    exact ReportLines.lists_flows ⟨[], rows, [], [], []⟩ held
  again {calls w'} made := by
    obtain ⟨next, earlier, holds⟩ := keeps.makeEach fresh calls
    obtain ⟨last, finished, -, -, again⟩ := keeps.finish holds
    rw [ReportCall.makeEach_append earlier, ReportCall.makeEach_singleton, ReportCall.make,
      finished] at made
    cases made
    exact again

end

theorem ReportFiles.sink_keeps (directory : Path) :
    sink.Keeps ReportFiles.files directory fun r texts =>
      r.directory = directory ∧ r.Holds texts where
  add {texts r call t rows} := by
    rintro ⟨same, holds⟩ added
    have made : call.make sink r = (r.append t rows, .ok ()) := by
      cases call <;> cases added <;> rfl
    exact ⟨_, made, same, holds.append t rows⟩
  flows {texts r} rows := by
    rintro ⟨rfl, holds⟩
    obtain ⟨r', written, holds', same, settled⟩ := replaceFlows_ok holds rows
    have held := holds'.read settled
    rw [same, Function.update_self] at held
    exact ⟨r', written, ⟨same, holds'⟩, held⟩
  finish {texts r} := by
    rintro ⟨rfl, holds⟩
    obtain ⟨r', finished, holds', same, held⟩ := finish_ok holds
    exact ⟨r', finished, ⟨same, holds'⟩, held, finish_again holds finished⟩

end RoadFlow
