import RoadFlow.Command.Fault
import RoadFlow.Fit.Run
import RoadFlow.Report.Recorder
import RoadFlow.Trip

/-!
# Solutions

A fit from its inputs to a finished report: the run itself, then the edge flows, the clusters and
the trips of the best flows found.
-/

namespace RoadFlow.Command

/-- What a fit is about. -/
structure Scene where
  network : Network
  clusters : Clustering
  matrix : AssignmentMatrix
  target : Target Float32

structure Solution where
  best : Flows Float32
  summary : RunSummary Float32
  tripCount : Nat

/-! ## The report of the best flows -/

/-- Writes a report that is under way. -/
abbrev Writing := ExceptT CommandFault (StateM ReportFiles)

/-- Makes a call to the writer of the report. -/
def Writing.call (write : ReportFiles → ReportFiles × Except ReportFault Unit) : Writing Unit := do
  let (r, result) := write (← get)
  set r
  match result with
  | .ok () => return ()
  | .error fault => throw (.report fault)

def Writing.take {α : Type} (result : Except CommandFault α) : Writing α :=
  match result with
  | .ok a => return a
  | .error fault => throw fault

/-- Trips are drawn from the first child of the stream that the flows came from. -/
def tripStream (c : FitSettings Float32) : Random.Stream :=
  ((Random.Stream.ofSeed c.seed).child 1).1

/-- Draws trips and reports them. -/
def writeTrips (scene : Scene) (c : FitSettings Float32) (best : Flows Float32) : Writing Nat := do
  let trips ← Writing.take ((Trips.sample best scene.clusters (tripStream c)).2.mapError .fit)
  Writing.call fun r => ReportFiles.sink.writeTrips r (tripLines scene.network trips.toList)
  return trips.size

/-- Reports everything but the flows. Gives the number of trips. -/
def writeRest (scene : Scene) (c : FitSettings Float32) (withTrips : Bool) (best : Flows Float32) :
    Writing Nat := do
  let predicted ← Writing.take ((best.predict scene.matrix).mapError .fit)
  let rows ← Writing.take
    ((edgeLines scene.network predicted).mapError fun fault => .report (.shape fault))
  Writing.call fun r => ReportFiles.sink.writeEdges r rows
  Writing.call fun r =>
    ReportFiles.sink.writeClusters r (clusterLines scene.network scene.clusters)
  let tripCount ← if withTrips then writeTrips scene c best else pure 0
  Writing.call ReportFiles.sink.finish
  return tripCount

/-! ## Solving -/

/-- What comes of solving: the files after it, the records of the run, the writer's refusal during
it, and the solution. -/
structure Solved where
  files : Storage.FileTree
  journal : Journal
  refusal : Option ReportFault
  result : Except CommandFault Solution

/-- Runs the fit of a scene and finishes the report. The report is closed even after a failure. -/
def solve (scene : Scene) (c : FitSettings Float32) (withTrips : Bool) (r : ReportFiles) : Solved :=
  match Fit.start scene.matrix scene.target c with
  | .error fault => ⟨r.close ReportTable.all, #[], none, .error (.fit fault)⟩
  | .ok f =>
    let observer := Observer.logging.pair (Observer.recording ReportFiles.sink)
    let run := f.run observer ((), Recorder.start r)
    let (refusal, recorder) := run.observer.2.takeFault
    let best := run.fit.bestOrCurrent
    let (result, r) := (writeRest scene c withTrips best).run recorder.writer
    ⟨r.close ReportTable.all, run.journal, refusal,
      result.map fun tripCount => ⟨best, run.summary, tripCount⟩⟩

end RoadFlow.Command
