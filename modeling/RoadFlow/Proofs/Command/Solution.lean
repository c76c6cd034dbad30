import RoadFlow.Command.Solution
import RoadFlow.Proofs.Report.Recording

/-!
# What solving reports

A scene is solved by a fit that takes all its steps and tells a recorder of them, and then by the
tables that are not the recorder's: edge flows, clusters and trips (`writeRest_ok`). Those show the
best flows, or the last if no loss was finite. The recorder writes the best flows only if there are
any, so the table of flows shows the same snapshot only if a loss was finite (`solve_ok`).
-/

namespace RoadFlow

open Storage (FileTree Path)
open Text.Utf8 (encode)

namespace Command

variable {α : Type} {scene : Scene} {c : FitSettings Float32} {withTrips : Bool}
  {best : Flows Float32} {r r' : ReportFiles} {lines : ReportLines}

/-! ## Writing -/

namespace Writing

theorem call_eq_ok {write : ReportFiles → ReportFiles × Except ReportFault Unit} {u : Unit} :
    (Writing.call write).run r = (.ok u, r') ↔ write r = (r', .ok ()) := by
  unfold Writing.call
  constructor
  · intro called
    obtain ⟨_, _, asked, called⟩ := run_bind_eq_ok.mp called
    cases asked
    rcases h : write r with ⟨w, fault | done⟩
    · rw [h] at called
      cases called
    · rw [h] at called
      cases called
      rfl
  · intro h
    refine run_bind_eq_ok.mpr ⟨r, r, rfl, ?_⟩
    rw [h]
    rfl

theorem take_eq_ok {result : Except CommandFault α} {a : α} :
    (Writing.take result).run r = (.ok a, r') ↔ result = .ok a ∧ r = r' := by
  have run : (Writing.take result).run r =
      ((result, r) : Except CommandFault α × ReportFiles) := by
    cases result <;> rfl
  rw [run]
  exact Prod.mk.injEq .. ▸ Iff.rfl

end Writing

/-- The lines of a report that shows a snapshot of a scene, its flows apart. -/
structure Describes (scene : Scene) (c : FitSettings Float32) (withTrips : Bool)
    (best : Flows Float32) (lines : ReportLines) : Prop where
  /-- What is predicted for every edge and hour. -/
  edges : ∃ predicted, best.predict scene.matrix = .ok predicted ∧
    predicted.rows = scene.network.edgeCount ∧ predicted.cols = hoursPerDay ∧
    lines.edges = predicted.cells.map fun (e, h, flow) => ⟨scene.network.edgeName ⟨e⟩, h, flow⟩
  clusters : lines.clusters = scene.clusters.clusters.flatMap fun k =>
    (scene.clusters.membersOf k).toList.map fun n => ⟨k.index, scene.network.nodeName n⟩
  trips : ∃ trips : Array Trip,
    (if withTrips then (Trips.sample best scene.clusters (tripStream c)).2 = .ok trips
      else trips = #[]) ∧
    lines.trips = trips.toList.map fun t =>
      ⟨t.number, scene.network.nodeName t.originNode, scene.network.nodeName t.destinationNode,
        t.departureTime, t.returnTime⟩

theorem predict_cols {m : AssignmentMatrix} {predicted : Grid Float32}
    (predicts : best.predict m = .ok predicted) : predicted.cols = best.pairs.cols := by
  rw [Flows.predict, Flows.predictWith] at predicts
  obtain ⟨edges, product, predicts⟩ := bind_eq_ok.mp predicts
  cases predicts
  have cols : edges.cols = best.pairs.cols := by
    have product := mapError_eq_ok.mp product
    rw [AssignmentMatrix.times] at product
    split at product
    · cases product
    · cases product
      rfl
  cases best.bias with
  | none => exact cols
  | some addends => exact cols

/-- Hours are less than eight bits hold, so the lines of edges have them as they are. -/
theorem edgeLines_ok {net : Network} {predicted : Grid Float32} {rows : List EdgeLine}
    (cols : predicted.cols = hoursPerDay) (listed : edgeLines net predicted = .ok rows) :
    predicted.rows = net.edgeCount ∧
      rows = predicted.cells.map fun (e, h, flow) => ⟨net.edgeName ⟨e⟩, h, flow⟩ := by
  rw [edgeLines] at listed
  split at listed
  · cases listed
  · rename_i same
    cases listed
    refine ⟨not_not.mp same, List.map_congr_left ?_⟩
    rintro ⟨e, h, flow⟩ cell
    have hour : h < hoursPerDay := cols ▸ (Grid.lt_of_get? (Grid.mem_cells.mp cell)).2
    have small : hoursPerDay < twoTo 8 := by decide
    dsimp only
    rw [Nat.mod_eq_of_lt (hour.trans small)]

/-- A call to the report that succeeds adds its lines. -/
theorem call_of_run (call : ReportCall) {u : Unit} (holds : r.Holds lines.text)
    (called : (Writing.call (call.make ReportFiles.sink)).run r = (.ok u, r')) :
    r'.Holds (lines.after call).text ∧ r'.directory = r.directory := by
  obtain ⟨made, settled, same, holds'⟩ :=
    (ReportFiles.sink_keeps r.directory).make ⟨rfl, holds⟩ call
  cases settled.symm.trans (Writing.call_eq_ok.mp called)
  exact ⟨holds', same⟩

/-- Behind what a report has, the rest of a snapshot is written. -/
theorem writeRest_ok {tripCount : Nat} (holds : r.Holds lines.text)
    (hours : best.pairs.cols = hoursPerDay)
    (fresh : lines.edges = [] ∧ lines.clusters = [] ∧ lines.trips = [])
    (written : (writeRest scene c withTrips best).run r = (.ok tripCount, r')) :
    ∃ later, r'.Holds later.text ∧ r'.directory = r.directory ∧ later.metrics = lines.metrics ∧
      later.flows = lines.flows ∧ Describes scene c withTrips best later := by
  obtain ⟨edges, clusters, noTrips⟩ := fresh
  unfold writeRest at written
  obtain ⟨predicted, _, taken, written⟩ := run_bind_eq_ok.mp written
  obtain ⟨predicts, rfl⟩ := Writing.take_eq_ok.mp taken
  obtain ⟨rows, _, taken, written⟩ := run_bind_eq_ok.mp written
  obtain ⟨listed, rfl⟩ := Writing.take_eq_ok.mp taken
  obtain ⟨_, withEdges, called, written⟩ := run_bind_eq_ok.mp written
  obtain ⟨holds, same⟩ := call_of_run (.edges rows) holds called
  obtain ⟨_, withClusters, called, written⟩ := run_bind_eq_ok.mp written
  obtain ⟨holds, same'⟩ :=
    call_of_run (.clusters (clusterLines scene.network scene.clusters)) holds called
  have predicts := mapError_eq_ok.mp predicts
  have cols := (predict_cols predicts).trans hours
  have shown : ∃ predicted, best.predict scene.matrix = .ok predicted ∧
      predicted.rows = scene.network.edgeCount ∧ predicted.cols = hoursPerDay ∧
      lines.edges ++ rows =
        predicted.cells.map fun (e, h, flow) => ⟨scene.network.edgeName ⟨e⟩, h, flow⟩ := by
    obtain ⟨all, each⟩ := edgeLines_ok cols (mapError_eq_ok.mp listed)
    rw [edges]
    exact ⟨predicted, predicts, all, cols, each⟩
  have grouped : lines.clusters ++ clusterLines scene.network scene.clusters =
      clusterLines scene.network scene.clusters := by
    rw [clusters, List.nil_append]
  cases withTrips with
  | false =>
    obtain ⟨_, _, none, written⟩ := run_bind_eq_ok.mp written
    cases none
    obtain ⟨_, _, called, done⟩ := run_bind_eq_ok.mp written
    cases done
    obtain ⟨holds, last⟩ := call_of_run .finish holds called
    exact ⟨_, holds, last.trans (same'.trans same), rfl, rfl, shown, grouped, #[], rfl, noTrips⟩
  | true =>
    obtain ⟨n, drawnTrips, drawing, written⟩ := run_bind_eq_ok.mp written
    obtain ⟨trips, _, taken, drawing⟩ := run_bind_eq_ok.mp drawing
    obtain ⟨drawn, rfl⟩ := Writing.take_eq_ok.mp taken
    obtain ⟨_, _, called, done⟩ := run_bind_eq_ok.mp drawing
    cases done
    obtain ⟨holds, same''⟩ :=
      call_of_run (.trips (tripLines scene.network trips.toList)) holds called
    obtain ⟨_, _, called, done⟩ := run_bind_eq_ok.mp written
    cases done
    obtain ⟨holds, last⟩ := call_of_run .finish holds called
    refine ⟨_, holds, last.trans (same''.trans (same'.trans same)), rfl, rfl, shown, grouped, trips,
      mapError_eq_ok.mp drawn, ?_⟩
    show lines.trips ++ tripLines scene.network trips.toList = _
    rw [noTrips, List.nil_append]
    rfl

/-! ## Solving -/

/-- What a fit ends with has a flow for every pair and hour. -/
theorem bestOrCurrent_shaped {fresh : Fit Float32}
    (started : Fit.start scene.matrix scene.target c = .ok fresh) (k : Nat) :
    (fresh.advanceMany k).1.bestOrCurrent.Shaped scene.matrix := by
  obtain ⟨sound, -⟩ := Fit.start_sound started
  cases found : (fresh.advanceMany k).1.best with
  | none =>
    rw [Fit.bestOrCurrent, found]
    exact (sound.advanceMany k).shaped
  | some b =>
    rw [Fit.bestOrCurrent, found]
    exact Fit.best_shaped started found

/-- What the lines of a report tell of a scene after a fit of all steps. The snapshot is that of the
best flows, or else of the last. The table of flows lists it if a loss was finite; otherwise the
table is left empty, whatever the others show. -/
structure Tells (scene : Scene) (c : FitSettings Float32) (withTrips : Bool) (fresh : Fit Float32)
    (lines : ReportLines) : Prop where
  started : Fit.start scene.matrix scene.target c = .ok fresh
  rest : Describes scene c withTrips (fresh.advanceMany c.steps).1.bestOrCurrent lines
  metrics : lines.metrics =
    (fresh.advanceMany c.steps).2.filter fun x => c.logInterval ∣ x.step
  listed : (∃ x ∈ (fresh.advanceMany c.steps).2, x.loss.isFinite = true) →
    lines.flows = pairLines (fresh.advanceMany c.steps).1.bestOrCurrent ∧
      (fresh.advanceMany c.steps).1.bestOrCurrent.Listed scene.matrix lines.flows
  empty : (∀ x ∈ (fresh.advanceMany c.steps).2, x.loss.isFinite = false) →
    lines.flows = [] ∧
      (fresh.advanceMany c.steps).1.bestOrCurrent = (fresh.advanceMany c.steps).1.current

/-- Which of the two the table of flows is depends on the losses of the steps. -/
theorem tells_of_flows {fresh : Fit Float32}
    (started : Fit.start scene.matrix scene.target c = .ok fresh)
    (rest : Describes scene c withTrips (fresh.advanceMany c.steps).1.bestOrCurrent lines)
    (metrics : lines.metrics =
      (fresh.advanceMany c.steps).2.filter fun x => c.logInterval ∣ x.step)
    (flows : lines.flows = (fresh.advanceMany c.steps).1.best.elim [] pairLines) :
    Tells scene c withTrips fresh lines := by
  obtain ⟨-, -, taken, none⟩ := Fit.start_sound started
  have tracks := Fit.tracks_advanceMany taken none c.steps
  refine ⟨started, rest, metrics, ?_, ?_⟩
  · rintro ⟨x, mem, finite⟩
    cases found : (fresh.advanceMany c.steps).1.best with
    | none =>
      have infinite : x.loss.isFinite = false := tracks.none_iff.mp found x mem
      rw [finite] at infinite
      cases infinite
    | some b =>
      rw [found] at flows
      rw [Fit.bestOrCurrent, found, flows]
      exact ⟨rfl, (Fit.best_shaped started found).listed⟩
  · intro infinite
    have found := tracks.none_iff.mpr infinite
    rw [found] at flows
    rw [Fit.bestOrCurrent, found]
    exact ⟨flows, rfl⟩

/-- The observer of a fit that is solved. -/
def watching : Observer Float32 (Unit × Recorder ReportFiles ReportFault) :=
  Observer.logging.pair (Observer.recording ReportFiles.sink)

/-- A fit that is solved takes all its steps, and then the report has the metrics that are logged and
the best flows, if there are any, and nothing else. -/
theorem watched_run {fresh : Fit Float32} {files files' : FileTree} {directory : Path}
    (started : Fit.start scene.matrix scene.target c = .ok fresh)
    (created : ReportFiles.create files directory = (files', .ok r)) :
    (fresh.run watching ((), .start r)).fit = (fresh.advanceMany c.steps).1 ∧
      (fresh.run watching ((), .start r)).observer.2.Holds directory
        { ReportLines.empty with
          metrics := (fresh.advanceMany c.steps).2.filter fun x => c.logInterval ∣ x.step
          flows := (fresh.advanceMany c.steps).1.best.elim [] pairLines } := by
  obtain ⟨k, ran⟩ := fresh.exists_ran watching ((), .start r)
  have stepsRun : (fresh.run watching ((), .start r)).summary.stepsRun = k :=
    congrArg RunSummary.stepsRun ran.summary
  obtain ⟨-, -, taken, -⟩ := Fit.start_sound started
  have settings : fresh.settings = c := by
    rw [(Fit.start_eq_ok.mp started).2]
    rfl
  have all : k = c.steps := by
    have whole := ran.finished (fresh.run_whole (fun _ => rfl) _)
    rw [whole, settings, taken, Nat.sub_zero]
  subst all
  have heard : (fresh.run watching ((), .start r)).observer.2 =
      (fresh.calls watching ((), .start r)).foldl (Recorder.hear ReportFiles.sink) (.start r) :=
    Fit.recorder_run ((Observer.recording_records ReportFiles.sink).pair_right Observer.logging) ..
  have told := (Recorder.start_holds created).hears (fresh.calls watching ((), .start r))
  rw [← heard, fresh.calls_eq, stepsRun, ran.fit, fresh.lines_calls, settings] at told
  exact ⟨ran.fit, told⟩

theorem solve_ok {files files' : FileTree} {directory : Path} {solution : Solution}
    (created : ReportFiles.create files directory = (files', .ok r))
    (solved : (solve scene c withTrips r).result = .ok solution) :
    ∃ fresh lines, Tells scene c withTrips fresh lines ∧
      ∀ t, (solve scene c withTrips r).files.read (ReportFiles.pathOf directory t) =
        .ok (encode (lines.text t)) := by
  cases started : Fit.start scene.matrix scene.target c with
  | error fault =>
    rw [solve, started] at solved
    cases solved
  | ok fresh =>
    obtain ⟨fit, holds⟩ := watched_run started created
    let out := fresh.run watching ((), .start r)
    let wrote := (writeRest scene c withTrips out.fit.bestOrCurrent).run out.observer.2.writer
    have whole : solve scene c withTrips r =
        ⟨Prod.snd wrote |>.close ReportTable.all, out.journal, out.observer.2.fault,
          Prod.fst wrote |>.map fun tripCount =>
            ⟨out.fit.bestOrCurrent, out.summary, tripCount⟩⟩ := by
      rw [solve, started]
      rfl
    rcases written : wrote with ⟨result, last⟩
    rw [written] at whole
    rw [whole] at solved ⊢
    cases result with
    | error fault => cases solved
    | ok tripCount =>
      have shaped := bestOrCurrent_shaped started c.steps
      rw [← fit] at shaped
      obtain ⟨later, holds', same, metrics, flows, rest⟩ :=
        writeRest_ok holds.texts shaped.cols ⟨rfl, rfl, rfl⟩ written
      rw [fit] at rest
      refine ⟨fresh, later, tells_of_flows started rest metrics flows, fun t => ?_⟩
      rw [← holds.directory, ← same]
      exact ReportFiles.close_ok holds' t

end Command

end RoadFlow
