import RoadFlow.Cache.Store
import RoadFlow.Cluster.Labels
import RoadFlow.Command.Options
import RoadFlow.Command.Solution
import RoadFlow.Fit.Document
import RoadFlow.Network.Table
import RoadFlow.Scenario.Grid
import RoadFlow.Sensor.Counts

/-!
# Running the command

The command as a function of a file tree and its arguments. It gathers a scene, takes the matrix
from a store of matrices, fits the flows and leaves a report, its settings and a log behind.
-/

namespace RoadFlow.Command

open Storage (FileTree Location Path)

/-- A run of the command under way. -/
structure Session where
  files : FileTree
  /-- The directory that paths are seen from. -/
  place : Location
  /-- The command's own records. -/
  told : Journal
  /-- All records. -/
  journal : Journal

/-- The path that a text names. -/
def Session.resolve (s : Session) (text : String) : Path := Path.ofString s.place text

/-- The directory of the report. -/
def Session.output (s : Session) (o : Options) : Path := s.resolve o.outputText

/-- The directory of the store of matrices. -/
def Session.cache (s : Session) (o : Options) : Path :=
  (o.cacheDirectory.map s.resolve).getD ((s.output o).join "cache")

/-- A stage of the run. A failure keeps what was done before it. -/
abbrev Stage := ExceptT CommandFault (StateM Session)

namespace Stage

def take {α ε : Type} (result : Except ε α) (fault : ε → CommandFault) : Stage α :=
  match result with
  | .ok a => return a
  | .error e => throw (fault e)

/-- Changes the files. -/
def change (edit : FileTree → FileTree × Except Storage.Fault Unit)
    (fault : Storage.Fault → CommandFault) : Stage Unit := do
  let s ← get
  let (files, result) := edit s.files
  set { s with files }
  take result fault

def note (records : Journal) : Stage Unit :=
  modify fun s => { s with journal := s.journal ++ records }

/-- Makes a record of the command's own. -/
def say (level : Level) (text : String) : Stage Unit :=
  modify fun s => { s with
    told := s.told.push ⟨level, text⟩
    journal := s.journal.push ⟨level, text⟩ }

end Stage

open Stage

/-! ## Files of the command's own -/

def logName : String := "log.txt"

def settingsName : String := "fit_config.json"

/-- Writes a file of the output directory. -/
def writeOutput (o : Options) (name : String) (bytes : Storage.Bytes)
    (fault : String → Storage.Fault → CommandFault) : Stage Unit := do
  let path := ((← get).output o).join name
  change (fun files => files.settle (files.write path bytes)) (fault path.text)

def openOutput (o : Options) : Stage Unit := do
  let directory := (← get).output o
  change (·.makeDirectories directory) (.outputDirectory o.outputText)
  writeOutput o logName [] .logFile

/-- The settings of a file. -/
def readSettings (text : String) : Stage (FitSettings Float32) := do
  let s ← get
  match ← take (s.files.find (s.resolve text)) (.settingsFile text) with
  | .directory => throw (.settingsBytes text .isDirectory)
  | .file bytes => take (FitSettings.ofDocument bytes) (.settingsDocument text)

/-- The settings of the fit, in range. -/
def gatherSettings (o : Options) : Stage (FitSettings Float32) := do
  let c ← match o.settings with
    | some text => readSettings text
    | none => pure FitSettings.standard
  let c := o.adjust c
  match c.fault? with
  | some fault => throw (.fit (.settings fault))
  | none => return c

def keepSettings (o : Options) (c : FitSettings Float32) : Stage Unit :=
  writeOutput o settingsName (Text.Utf8.encode c.document) .newFile

/-! ## The scene -/

/-- A network, its clusters and the target, if it does not come from the matrix. -/
structure Gathered where
  network : Network
  clusters : Clustering
  target : Option (Target Float32)

def readTables (nodes links labels counts : String) (clusterCount : Nat) : Stage Gathered := do
  let s ← get
  let net ← take (Network.load s.files (s.resolve nodes) (s.resolve links)) (.tables nodes links)
  note #[net.loadRecord]
  let labelList ← take (Labels.load s.files net (s.resolve labels)) (.labels labels)
  let clusters ← take (Clustering.ofLabels net labelList clusterCount) .matrix
  let (records, target) := Counts.load s.files net (s.resolve counts)
  note records
  return ⟨net, clusters, some (← take target (.counts counts))⟩

def gather : Source → Stage Gathered
  | .gridTown => do
    let net ← take GridTown.network fun fault => .matrix (.network fault)
    return ⟨net, ← take (GridTown.clusters net) .matrix, none⟩
  | .tables nodes links labels counts z => readTables nodes links labels counts z

/-- The name of a policy beside a number of searches. -/
def searchName : Policy → String
  | .length => "Length"
  | .hops => "Hops"

def sayOutcome : Cache.Outcome → Stage Unit
  | .hit => say .info "TAM loaded from cache"
  | .miss => say .info "TAM assembled"
  | .rebuilt reason => say .warn ("TAM rebuilt, cache was unusable: " ++ reason.message)

def obtainMatrix (o : Options) (g : Gathered) : Stage AssignmentMatrix := do
  let s ← get
  let r := Cache.obtain s.files (s.cache o) g.network g.clusters (o.policy.getD .standard)
  set { s with files := r.files }
  note r.journal
  let cached ← take r.result .matrix
  sayOutcome cached.outcome
  match cached.survey with
  | none => pure ()
  | some survey =>
    say .info (s!"{survey.searches} searches ({searchName survey.policy}), " ++
      s!"{survey.marks} non-zeros, {survey.unreachable.length} unreachable pairs")
  return cached.matrix

/-- The target of the built-in scenario comes from the matrix itself. -/
def settleTarget (g : Gathered) (m : AssignmentMatrix) : Stage (Target Float32) := do
  match g.target with
  | some target => return target
  | none =>
    let (counts, sensors) ← take (GridTown.counts m) .matrix
    take (Target.ofGrid counts sensors) .fit

/-- The scene of what was gathered: its matrix and its target. -/
def sceneOf (o : Options) (g : Gathered) : Stage Scene := do
  say .info (s!"network '{g.network.name}': {g.network.nodeCount} nodes, " ++
    s!"{g.network.edgeCount} links, {g.clusters.clusterCount} clusters")
  let m ← obtainMatrix o g
  let target ← settleTarget g m
  say .info s!"{target.sensors.length} sensor links"
  let uncovered := uncoveredSensors m target
  unless uncovered.isEmpty do
    say .warn (s!"{uncovered.length} sensor links lie on no cluster-pair path " ++
      "and cannot be matched")
  return ⟨g.network, g.clusters, m, target⟩

def gatherScene (o : Options) (source : Source) : Stage Scene := do
  let g ← gather source
  sceneOf o g

/-! ## The whole run -/

def metricsLine (name : String) (step : Nat) (loss mad : Float32) : String :=
  s!"  {name} step {Decimal.padLeft 6 (toString step)}" ++
    s!"  loss {Decimal.padLeft 12 (FitRecords.places 4 loss)}" ++
    s!"  mad {Decimal.padLeft 10 (FitRecords.places 4 mad)}"

/-- What is shown of a solution. -/
def summaryLines (o : Options) (s : Solution) : List String :=
  [s!"Fit complete ({s.summary.stepsRun} steps)"] ++
  (s.summary.last.toList.map fun m => metricsLine "final" m.step m.loss m.mad) ++
  [metricsLine "best " s.best.step s.best.loss s.best.mad,
    s!"  total OD flow        : {FitRecords.places 1 s.best.total}",
    s!"  sampled trips        : {s.tripCount}",
    "  outputs              : " ++ o.outputText]

/-- Fits a scene and reports it. -/
def fitScene (o : Options) (c : FitSettings Float32) (scene : Scene) : Stage Solution := do
  let s ← get
  let (files, created) := ReportFiles.create s.files (s.output o)
  set { s with files }
  let report ← take created .report
  let solved := solve scene c (!o.noTrips) report
  modify fun s => { s with files := solved.files }
  note solved.journal
  match solved.refusal with
  | some fault => say .warn ("output error during fit: " ++ fault.message)
  | none => pure ()
  take solved.result id

def program (o : Options) (source : Source) : Stage (List String) := do
  openOutput o
  let c ← gatherSettings o
  let scene ← gatherScene o source
  keepSettings o c
  return summaryLines o (← fitScene o c scene)

/-- How a run ends. -/
inductive Ending where
  | shown (page : Page)
  | misused (fault : UsageFault)
  | failed (fault : CommandFault)
  | completed (lines : List String)

namespace Ending

/-- The status that is left to the caller. -/
def status : Ending → Nat
  | shown _ | completed _ => 0
  | failed _ => 1
  | misused _ => 2

/-- The lines that are shown, a blank one between the records and a summary. -/
def lines : Ending → List String
  | shown page => page.lines
  | completed lines => "" :: lines
  | failed _ | misused _ => []

/-- The text of what went wrong. -/
def complaint : Ending → String
  | shown _ | completed _ => ""
  | failed fault => fault.text
  | misused fault => "error: " ++ fault.message ++ "\n"

end Ending

/-- The options and the source that some arguments ask for, or how the run ends without them. -/
def plan (arguments : List String) : Except Ending (Options × Source) :=
  match Options.ofArguments arguments with
  | .error (.page page) => .error (.shown page)
  | .error (.fault fault) => .error (.misused fault)
  | .ok o =>
    match o.source with
    | .error fault => .error (.misused fault)
    | .ok source => .ok (o, source)

/-- The text of a log. -/
def logText (j : Journal) : String := String.join (j.toList.map fun r => r.line ++ "\n")

/-- Writes the log of a session whose output was opened. -/
def Session.keepLog (s : Session) (o : Options) : Session :=
  let path := (s.output o).join logName
  { s with
    files := (s.files.settle (s.files.write path (Text.Utf8.encode (logText s.journal)))).1 }

/-- The start of a run on the files as seen from a directory. -/
def Session.start (files : FileTree) (place : Location) : Session := ⟨files, place, #[], #[]⟩

def execute (o : Options) (source : Source) (s : Session) : Session × Ending :=
  let (result, s) := (program o source).run s
  (s.keepLog o, match result with
    | .ok lines => .completed lines
    | .error fault => .failed fault)

/-- The records that are shown: debug records only when asked for. -/
def shownRecords (o : Options) (j : Journal) : List LogRecord :=
  j.toList.filter fun r => o.verbose || r.level ≠ .debug

/-- All paths that a plan reads or writes. -/
def Session.paths (s : Session) (o : Options) (source : Source) : List Path :=
  let (tables, network, clusterCount) := match source with
    | .gridTown => ([], GridTown.name, GridTown.clusterCount)
    | .tables nodes links labels counts z =>
      ([nodes, links, labels, counts], Network.nameOfFile (s.resolve links), z)
  let made := logName :: settingsName :: ReportTable.all.map (·.fileName)
  (tables ++ o.settings.toList).map s.resolve ++ made.map (s.output o).join ++
    [Cache.filePath (s.cache o) network clusterCount]

/-- Runs the command. -/
def run (files : FileTree) (place : Location) (arguments : List String) : Session × Ending :=
  match plan arguments with
  | .error ending => (.start files place, ending)
  | .ok (o, source) => execute o source (.start files place)

end RoadFlow.Command
