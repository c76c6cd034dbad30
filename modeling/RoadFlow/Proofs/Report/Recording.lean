import Mathlib.Data.List.Induction
import RoadFlow.Proofs.Fit.Beginning
import RoadFlow.Proofs.Fit.Resumption
import RoadFlow.Proofs.Matrix.Grid
import RoadFlow.Proofs.Report.Calls
import RoadFlow.Report.Recorder

/-!
# What a recorded run leaves

A run that is recorded leaves the metrics of the steps that are logged, in order, and one snapshot:
that of the best flows, however often it was written before (`report_of_run`).
-/

namespace RoadFlow

open Storage (FileTree Path)

variable {σ τ ω ε : Type}

/-! ## Observers that record -/

/-- An observer that keeps a recorder, whatever else it does. -/
structure Observer.Records (o : Observer Float32 σ) (sink : Sink ω ε) (view : σ → Recorder ω ε) :
    Prop where
  shouldStop (s : σ) : view (o.shouldStop s).2 = view s
  receive (s : σ) (call : Call Float32) : view (o.receive s call).1 = (view s).hear sink call

namespace Observer

variable {o : Observer Float32 σ} {sink : Sink ω ε} {view : σ → Recorder ω ε}

theorem recording_records (sink : Sink ω ε) : (recording sink).Records sink id :=
  ⟨fun _ => rfl, fun _ _ => rfl⟩

theorem Records.pair_left (records : o.Records sink view) (p : Observer Float32 τ) :
    (o.pair p).Records sink fun (s, _) => view s :=
  ⟨fun (s, _) => records.shouldStop s, fun (s, _) call => records.receive s call⟩

theorem Records.pair_right {p : Observer Float32 τ} {view : τ → Recorder ω ε}
    (records : p.Records sink view) (o : Observer Float32 σ) :
    (o.pair p).Records sink fun s => view s.2 :=
  ⟨fun s => records.shouldStop s.2, fun s call => records.receive s.2 call⟩

end Observer

/-- All that a run tells. -/
def Fit.calls (f : Fit Float32) (o : Observer Float32 σ) (s : σ) : List (Call Float32) :=
  (f.exchanges o s).filterMap Exchange.call?

/-- A recorder hears all that is told, in order. -/
theorem Fit.recorder_run {o : Observer Float32 σ} {sink : Sink ω ε} {view : σ → Recorder ω ε}
    (records : o.Records sink view) (f : Fit Float32) (s : σ) :
    view (f.run o s).observer = (f.calls o s).foldl (Recorder.hear sink) (view s) := by
  let Heard : σ × List (Exchange Float32) → Prop := fun (now, past) =>
    view now = (past.filterMap Exchange.call?).foldl (Recorder.hear sink) (view s)
  have keeps : o.recorded.Keeps Heard := by
    constructor
    · intro (now, past) heard
      show view (o.shouldStop now).2 = ((past ++ [Exchange.asked (o.shouldStop now).1]).filterMap
        Exchange.call?).foldl (Recorder.hear sink) (view s)
      rw [records.shouldStop, List.filterMap_append]
      exact heard.trans (by simp [Exchange.call?, List.filterMap_cons])
    · intro (now, past) call heard
      have heard : view now = _ := heard
      show view (o.receive now call).1 = ((past ++ [Exchange.told call]).filterMap
        Exchange.call?).foldl (Recorder.hear sink) (view s)
      rw [records.receive, heard, List.filterMap_append, List.foldl_append]
      rfl
  have heard : Heard (f.run o.recorded (s, [])).observer := f.run_keeps keeps rfl
  rw [f.run_shown o.recorded_shows (s, [])]
  exact heard

/-! ## Calls of a run -/

namespace Call

/-- The metrics that are written on a call. -/
def logged? : Call Float32 → Option (Metrics Float32)
  | .log m => some m
  | _ => none

/-- The snapshot that is written on a call. -/
def saved? : Call Float32 → Option (Flows Float32)
  | .checkpoint _ best => some best
  | .fitEnd _ best => best
  | _ => none

end Call

namespace Fit

/-- What so many steps tell. -/
def toldBy (f : Fit Float32) (k : Nat) : List (Call Float32) :=
  (List.range k).flatMap fun i => (f.advanceMany i).1.stepCalls

theorem toldBy_succ (f : Fit Float32) (k : Nat) :
    f.toldBy (k + 1) = f.toldBy k ++ (f.advanceMany k).1.stepCalls := by
  rw [toldBy, List.range_succ, List.flatMap_append, List.flatMap_singleton, toldBy]

theorem calls_eq (f : Fit Float32) (o : Observer Float32 σ) (s : σ) :
    f.calls o s = f.toldBy (f.run o s).summary.stepsRun ++
      [.fitEnd (f.run o s).summary (f.run o s).fit.best] := by
  obtain ⟨k, ran⟩ := f.exists_ran o s
  have stepsRun : (f.run o s).summary.stepsRun = k := congrArg RunSummary.stepsRun ran.summary
  rw [calls, ran.exchanges, List.filterMap_append, Exchange.calls_ending, script_eq, stepsRun,
    List.filterMap_flatMap, toldBy]
  congr 2
  funext i
  rw [List.filterMap_cons_none rfl, List.filterMap_map]
  exact List.filterMap_some

theorem logged_stepCalls (f : Fit Float32) :
    f.stepCalls.filterMap Call.logged? =
      if f.settings.logInterval ∣ f.advance.metrics.step then [f.advance.metrics] else [] := by
  have checkpoints (step : Nat) (best : List (Flows Float32)) :
      (best.map (Call.checkpoint step)).filterMap Call.logged? = [] := by
    rw [List.filterMap_map]
    exact List.filterMap_eq_nil_iff.mpr fun _ _ => rfl
  unfold stepCalls
  simp only [List.filterMap_append]
  split <;> split <;> split <;> simp [Call.logged?, checkpoints, List.filterMap_cons]

theorem saved_stepCalls {f : Fit Float32} (empty : f.advance.fit.best = none) :
    f.stepCalls.filterMap Call.saved? = [] := by
  unfold stepCalls
  simp only [List.filterMap_append, empty]
  split <;> split <;> split <;> simp [Call.saved?, List.filterMap_cons]

/-- The metrics that are logged are those of the steps that are due, in order. -/
theorem logged_toldBy (f : Fit Float32) (k : Nat) :
    (f.toldBy k).filterMap Call.logged? =
      (f.advanceMany k).2.filter fun x => f.settings.logInterval ∣ x.step := by
  induction k with
  | zero => rfl
  | succ k ih =>
    rw [toldBy_succ, List.filterMap_append, ih, logged_stepCalls, advanceMany_succ,
      List.filter_append, settings_advanceMany]
    congr 1
    by_cases due : f.settings.logInterval ∣ (f.advanceMany k).1.advance.metrics.step <;> simp [due]

theorem best_of_advance {f : Fit Float32} (empty : f.advance.fit.best = none) : f.best = none := by
  rw [best_advance] at empty
  split at empty
  · cases empty
  · exact empty

/-- As long as there are no best flows, none are handed out. -/
theorem saved_toldBy {f : Fit Float32} {k : Nat} (empty : (f.advanceMany k).1.best = none) :
    (f.toldBy k).filterMap Call.saved? = [] := by
  induction k with
  | zero => rfl
  | succ k ih =>
    rw [advanceMany_succ] at empty
    rw [toldBy_succ, List.filterMap_append, ih (best_of_advance empty), saved_stepCalls empty,
      List.append_nil]

end Fit

/-! ## Lines that are written -/

namespace Recorder

/-- The lines of a report after a call. -/
def linesAfter (lines : ReportLines) : Call Float32 → ReportLines
  | .log m => lines.after (.metrics m)
  | .checkpoint _ best | .fitEnd _ (some best) => lines.after (.flows (pairLines best))
  | .fitEnd _ none | .step _ | .newBest _ => lines

variable {r : Recorder ReportFiles ReportFault} {directory : Path} {lines : ReportLines}

/-- A recorder without a fault, whose report has some lines. -/
structure Holds (r : Recorder ReportFiles ReportFault) (directory : Path)
    (lines : ReportLines) : Prop where
  fault : r.fault = none
  directory : r.writer.directory = directory
  texts : r.writer.Holds lines.text

theorem start_holds {files files' : FileTree} {report : ReportFiles}
    (created : ReportFiles.create files directory = (files', .ok report)) :
    (start report : Recorder ReportFiles ReportFault).Holds directory .empty := by
  obtain ⟨same, headers⟩ := ReportFiles.create_ok created
  exact ⟨rfl, same, ReportLines.text_empty ▸ headers⟩

theorem call_ok {ω ε : Type} {r : Recorder ω ε} {write : ω → ω × Except ε Unit} {w : ω}
    (written : write r.writer = (w, .ok ())) : r.call write = { r with writer := w } := by
  rw [call, written]
  rfl

theorem Holds.saveFlows (holds : r.Holds directory lines) (best : Flows Float32) :
    (r.saveFlows ReportFiles.sink best).Holds directory
      (lines.after (.flows (pairLines best))) := by
  obtain ⟨w, written, later, same, -⟩ := ReportFiles.replaceFlows_ok holds.texts (pairLines best)
  rw [Recorder.saveFlows, call_ok written]
  rw [← lines.text_after_flows] at later
  exact ⟨holds.fault, same.trans holds.directory, later⟩

theorem Holds.finish (holds : r.Holds directory lines) :
    (r.call ReportFiles.sink.finish).Holds directory lines ∧
      lines.In (r.call ReportFiles.sink.finish).writer.files directory := by
  obtain ⟨w, finished, later, same, held⟩ := ReportFiles.finish_ok holds.texts
  have finished : ReportFiles.sink.finish r.writer = (w, .ok ()) := finished
  rw [holds.directory] at same held
  rw [call_ok finished]
  exact ⟨⟨holds.fault, same, later⟩, ReportLines.in_of_texts held⟩

theorem Holds.log (holds : r.Holds directory lines) (m : Metrics Float32) :
    (r.hear ReportFiles.sink (.log m)).Holds directory (lines.after (.metrics m)) where
  fault := holds.fault
  directory := holds.directory
  texts := by
    rw [ReportLines.text_after_added rfl]
    exact holds.texts.append .metrics _

theorem Holds.hear (holds : r.Holds directory lines) (call : Call Float32) :
    (r.hear ReportFiles.sink call).Holds directory (linesAfter lines call) := by
  cases call with
  | step | newBest => exact holds
  | log m => exact holds.log m
  | checkpoint step best => exact (holds.saveFlows best).finish.1
  | fitEnd summary best =>
    cases best with
    | none => exact holds.finish.1
    | some best => exact (holds.saveFlows best).finish.1

/-- Once it hears that the run is over, a recorder has all lines in the files. -/
theorem Holds.end (holds : r.Holds directory lines) (summary : RunSummary Float32)
    (best : Option (Flows Float32)) :
    (linesAfter lines (.fitEnd summary best)).In
      (r.hear ReportFiles.sink (.fitEnd summary best)).writer.files directory := by
  cases best with
  | none => exact holds.finish.2
  | some best => exact (holds.saveFlows best).finish.2

theorem Holds.hears (holds : r.Holds directory lines) (calls : List (Call Float32)) :
    (calls.foldl (Recorder.hear ReportFiles.sink) r).Holds directory
      (calls.foldl linesAfter lines) := by
  induction calls generalizing r lines with
  | nil => exact holds
  | cons call calls ih => exact ih (holds.hear call)

/-- The table of metrics grows by what is logged, that of flows is the last snapshot, and the other
tables are left as they are. -/
theorem foldl_linesAfter (calls : List (Call Float32)) (lines : ReportLines) :
    calls.foldl linesAfter lines =
      { lines with
        metrics := lines.metrics ++ calls.filterMap Call.logged?
        flows := (calls.filterMap Call.saved?).getLast?.elim lines.flows pairLines } := by
  induction calls using List.reverseRecOn with
  | nil => simp
  | append_singleton calls call ih =>
    rw [List.foldl_append, ih, List.filterMap_append, List.filterMap_append, List.getLast?_append]
    cases call with
    | log m => simp [linesAfter, ReportLines.after, Call.logged?, Call.saved?]
    | checkpoint step best => simp [linesAfter, ReportLines.after, Call.logged?, Call.saved?]
    | fitEnd summary best =>
      cases best <;> simp [linesAfter, ReportLines.after, Call.logged?, Call.saved?]
    | step | newBest => simp [linesAfter, Call.logged?, Call.saved?]

end Recorder

/-! ## Lines of a snapshot -/

section

variable {β : Type} {f : Nat → List β} {len n : Nat}

theorem length_flatMap_range (lengths : ∀ i, (f i).length = len) :
    ((List.range n).flatMap f).length = n * len := by
  simp [List.length_flatMap, lengths]

/-- Lists of one length, one behind the other. -/
theorem getElem?_flatMap_range (lengths : ∀ i, (f i).length = len) {i j : Nat} (hi : i < n)
    (hj : j < len) : ((List.range n).flatMap f)[i * len + j]? = (f i)[j]? := by
  induction n with
  | zero => omega
  | succ n ih =>
    rw [List.range_succ, List.flatMap_append, List.flatMap_singleton]
    have front : ((List.range n).flatMap f).length = n * len := length_flatMap_range lengths
    rcases Nat.lt_succ_iff_lt_or_eq.mp hi with earlier | rfl
    · have inside : i * len + j < n * len := by
        have rows : (i + 1) * len ≤ n * len := Nat.mul_le_mul_right len earlier
        rw [Nat.add_mul, Nat.one_mul] at rows
        omega
      rw [List.getElem?_append_left (front ▸ inside), ih earlier]
    · rw [List.getElem?_append_right (by omega), front, Nat.add_sub_cancel_left]

end

variable {m : AssignmentMatrix} {b : Flows Float32}

/-- The lines of a snapshot: one for each origin, destination and hour, in this order. -/
structure Flows.Listed (m : AssignmentMatrix) (b : Flows Float32) (lines : List PairLine) :
    Prop where
  length : lines.length = m.width * hoursPerDay
  line : ∀ i < m.clusterCount, ∀ j < m.clusterCount, ∀ h : Hour,
    ∃ flow, b.pairs.get? (i * m.clusterCount + j) h.index = some flow ∧
      lines[(i * m.clusterCount + j) * hoursPerDay + h.index]? = some ⟨i, j, h.index, flow⟩

theorem Flows.Shaped.listed (shaped : b.Shaped m) : b.Listed m (pairLines b) := by
  let z := m.clusterCount
  let line (i j : Nat) (h : Hour) : PairLine := ⟨i, j, h.index, b.pairs.get (i * z + j) h.index⟩
  let row (i j : Nat) : List PairLine := Hour.all.map (line i j)
  have hours (i j : Nat) : (row i j).length = hoursPerDay := by
    rw [List.length_map]
    rfl
  have rows (i : Nat) : ((List.range z).flatMap (row i)).length = z * hoursPerDay :=
    length_flatMap_range (hours i)
  have lines : pairLines b = (List.range z).flatMap fun i => (List.range z).flatMap (row i) := by
    rw [pairLines, shaped.clusterCount]
  constructor
  · rw [lines, length_flatMap_range rows, AssignmentMatrix.width, Nat.mul_assoc]
  · intro i hi j hj h
    have column : i * z + j < m.width := (OdPair.Within.column_lt (p := ⟨⟨i⟩, ⟨j⟩⟩) ⟨hi, hj⟩)
    refine ⟨_, Grid.get?_eq (shaped.rows ▸ column) (shaped.cols ▸ h.index_lt), ?_⟩
    have inside : j * hoursPerDay + h.index < z * hoursPerDay := by
      have := h.index_lt
      have rows : (j + 1) * hoursPerDay ≤ z * hoursPerDay := Nat.mul_le_mul_right _ hj
      rw [Nat.add_mul, Nat.one_mul] at rows
      omega
    have place : (i * z + j) * hoursPerDay + h.index =
        i * (z * hoursPerDay) + (j * hoursPerDay + h.index) := by
      rw [Nat.add_mul, Nat.mul_assoc, Nat.add_assoc]
    have hour : Hour.all[h.index]? = some h := by
      simp [Hour.all, h.index_lt]
    rw [place, lines, getElem?_flatMap_range rows hi inside,
      getElem?_flatMap_range (hours i) hj h.index_lt, List.getElem?_map, hour]
    rfl

/-! ## The files of a run -/

/-- What the files of a report say of a run. -/
structure Fit.Reported (fresh : Fit Float32) (m : AssignmentMatrix) (directory : Path)
    (files : FileTree) (out : Finished Float32 σ) : Prop where
  fit : out.fit = (fresh.advanceMany out.summary.stepsRun).1
  /-- The metrics of the steps that are logged. -/
  metrics : files.Lists (directory.join "fit_metrics.csv") ["step", "loss", "mad"] Metrics.IsRow
    ((fresh.advanceMany out.summary.stepsRun).2.filter fun x =>
      fresh.settings.logInterval ∣ x.step)
  /-- The best flows, if there are any. -/
  flows : files.Lists (directory.join "od_flows.csv") ["origin", "destination", "hour", "flow"]
    PairLine.IsRow (out.fit.best.elim [] pairLines)
  listed : ∀ b ∈ out.fit.best, b.Listed m (pairLines b)

theorem Fit.best_shaped {t : Target Float32} {c : FitSettings Float32} {fresh : Fit Float32}
    (started : Fit.start m t c = .ok fresh) {k : Nat}
    (best : (fresh.advanceMany k).1.best = some b) : b.Shaped m := by
  obtain ⟨sound, -, count, empty⟩ := start_sound started
  have leads := (tracks_advanceMany count empty k).leads b best
  rw [leads.entered]
  exact (sound.advanceMany b.step).shaped

/-- The lines of a report after a whole run. -/
theorem Fit.lines_calls (fresh : Fit Float32) (k : Nat) (summary : RunSummary Float32) :
    (fresh.toldBy k ++ [Call.fitEnd summary (fresh.advanceMany k).1.best]).foldl
        Recorder.linesAfter .empty =
      { ReportLines.empty with
        metrics := (fresh.advanceMany k).2.filter fun x => fresh.settings.logInterval ∣ x.step
        flows := (fresh.advanceMany k).1.best.elim [] pairLines } := by
  have last : [Call.fitEnd summary (fresh.advanceMany k).1.best].filterMap Call.logged? = [] := rfl
  have ended : [Call.fitEnd summary (fresh.advanceMany k).1.best].filterMap Call.saved? =
      (fresh.advanceMany k).1.best.toList := by
    cases (fresh.advanceMany k).1.best <;> rfl
  rw [Recorder.foldl_linesAfter, List.filterMap_append, List.filterMap_append, last, ended,
    List.append_nil, logged_toldBy, List.getLast?_append]
  cases found : (fresh.advanceMany k).1.best with
  | none =>
    rw [saved_toldBy found]
    rfl
  | some best => rfl

/-- Whatever else its observer does, and whether or not it stops the run, a run that is recorded
into a report that was just opened meets no fault. It leaves the metrics of the steps that are
logged, in order, and each flow of the last best snapshot, by origin, destination and hour. -/
theorem report_of_run {t : Target Float32} {c : FitSettings Float32} {fresh : Fit Float32}
    {files files' : FileTree} {directory : Path} {report : ReportFiles}
    {o : Observer Float32 σ} {view : σ → Recorder ReportFiles ReportFault} {s : σ}
    (started : Fit.start m t c = .ok fresh)
    (created : ReportFiles.create files directory = (files', .ok report))
    (records : o.Records ReportFiles.sink view) (begun : view s = .start report) :
    (view (fresh.run o s).observer).fault = none ∧
      fresh.Reported m directory (view (fresh.run o s).observer).writer.files (fresh.run o s) := by
  obtain ⟨k, ran⟩ := fresh.exists_ran o s
  have stepsRun : (fresh.run o s).summary.stepsRun = k := congrArg RunSummary.stepsRun ran.summary
  have fit : (fresh.run o s).fit = (fresh.advanceMany k).1 := ran.fit
  have told := (Recorder.start_holds created).hears (fresh.toldBy k)
  have ended := told.end (fresh.run o s).summary (fresh.advanceMany k).1.best
  have lines := fresh.lines_calls k (fresh.run o s).summary
  rw [List.foldl_append, List.foldl_cons, List.foldl_nil] at lines
  rw [lines] at ended
  rw [Fit.recorder_run records, begun, fresh.calls_eq, stepsRun, fit, List.foldl_append]
  refine ⟨(told.hear _).fault, ?_, ?_, ?_, ?_⟩
  · rw [stepsRun, fit]
  · rw [stepsRun]
    exact ended.metrics
  · rw [fit]
    exact ended.flows
  · intro b best
    rw [fit] at best
    exact (Fit.best_shaped started best).listed

/-- A run that is recorded and stopped after three steps. -/
theorem report_of_run_sample :
    ∃ fresh files report,
      Fit.start .sample .sample .standard = .ok fresh ∧
      ReportFiles.create .empty sampleReport = (files, .ok report) ∧
      let o := (Observer.recording ReportFiles.sink).pair (.stopping (some 3) none)
      let out := fresh.run o (.start report, ⟨0, false⟩)
      out.observer.1.fault = none ∧
        fresh.Reported .sample sampleReport out.observer.1.writer.files out := by
  obtain ⟨fresh, started⟩ := Fit.start_sample
  obtain ⟨files, report, created⟩ := ReportFiles.create_sample
  exact ⟨fresh, files, report, started, created, report_of_run started created
    ((Observer.recording_records ReportFiles.sink).pair_left _) rfl⟩

end RoadFlow
