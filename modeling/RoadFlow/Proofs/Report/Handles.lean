import RoadFlow.Proofs.Report.Calls

/-!
# A report through open files

A report written as a program with open files writes it. Each table has a handle: a place in its
file, and bytes that wait to be written there, of which any number may go before the table is
flushed. The file of flows is opened anew for each snapshot while the handle that it had is still
open, and what waits for that one is written where it stood. A handle that always stands at the end
of its file (`OpenReport.Holds`) writes nothing in the wrong place, so the files are those of
`ReportFiles` (`files_of_calls`).
-/

namespace RoadFlow

open Storage (FileTree Path Bytes Fault)
open Text.Utf8 (encode)

/-! ## Files written in places -/

/-- Bytes written over others from an offset on. What lies between the end of those and the offset
becomes zero. -/
def Storage.splice (held : Bytes) (offset : Nat) (bytes : Bytes) : Bytes :=
  held.take offset ++ List.replicate (offset - held.length) 0 ++ bytes ++
    held.drop (offset + bytes.length)

theorem Storage.splice_end (held bytes : Bytes) :
    splice held held.length bytes = held ++ bytes := by
  simp [splice]

/-- Writes bytes into a file from an offset on. -/
def Storage.FileTree.writeAt (files : FileTree) (path : Path) (offset : Nat) (bytes : Bytes) :
    Except Fault FileTree :=
  if bytes = [] then .ok files
  else do
    let held ← files.read path
    files.write path (splice held offset bytes)

/-- A file that is written at its end grows, and no other file changes. -/
theorem Storage.FileTree.writeAt_end {files : FileTree} {path : Path} {held : Bytes}
    (read : files.read path = .ok held) (bytes : Bytes) :
    ∃ files', files.writeAt path held.length bytes = .ok files' ∧
      files'.read path = .ok (held ++ bytes) ∧
      ∀ (other : Path) (held' : Bytes), other.location ≠ path.location →
        files.read other = .ok held' → files'.read other = .ok held' := by
  by_cases nothing : bytes = []
  · refine ⟨files, if_pos nothing, ?_, fun _ _ _ beside => beside⟩
    rw [nothing, List.append_nil, read]
  · obtain ⟨files', written⟩ := write_of_read read (held ++ bytes)
    refine ⟨files', ?_, read_written written, fun _ _ => read_beside written⟩
    rw [writeAt, if_neg nothing, read]
    exact (congrArg (files.write path) (splice_end held bytes)).trans written

/-! ## Handles -/

/-- A file under writing: where its next bytes go, and those that wait. -/
structure Handle where
  offset : Nat
  waiting : Bytes

/-- Puts text behind what waits. -/
def Handle.put (h : Handle) (text : String) : Handle :=
  { h with waiting := h.waiting ++ encode text }

/-- A report with an open file for each table. -/
structure OpenReport where
  files : FileTree
  directory : Path
  handles : ReportTable → Handle

namespace OpenReport

/-- The first bytes that wait for a table go into its file. -/
def pour (r : OpenReport) (t : ReportTable) (n : Nat) : Except Fault OpenReport := do
  let h := r.handles t
  let files ← r.files.writeAt (ReportFiles.pathOf r.directory t) h.offset (h.waiting.take n)
  return { r with
    files
    handles := Function.update r.handles t
      ⟨h.offset + (h.waiting.take n).length, h.waiting.drop n⟩ }

def flush (r : OpenReport) (t : ReportTable) : Except Fault OpenReport :=
  r.pour t (r.handles t).waiting.length

def finish (r : OpenReport) : Except Fault OpenReport := ReportTable.all.foldlM flush r

-- How many of the bytes that wait go into the file when text is put into a handle. A handle that has
-- room keeps all of them, and one that overflows may keep the end of a record.
variable (spills : Handle → Nat)

/-- Puts text behind what waits for a table. -/
def push (r : OpenReport) (t : ReportTable) (text : String) : Except Fault OpenReport :=
  let h := (r.handles t).put text
  { r with handles := Function.update r.handles t h }.pour t (spills h)

def append (r : OpenReport) (t : ReportTable) (rows : List (List String)) :
    Except Fault OpenReport :=
  rows.foldlM (fun r row => r.push spills t (Csv.writeRecord row)) r

/-- Opens the file of a table anew. The handle that it had is closed only then: what waits for it
is written where it stood, and nobody hears of it if that fails. -/
def reopen (r : OpenReport) (t : ReportTable) : Except Fault OpenReport := do
  let files ← r.files.write (ReportFiles.pathOf r.directory t) []
  let fresh ← { r with files, handles := Function.update r.handles t ⟨0, []⟩ }.push spills t t.header
  let old := r.handles t
  match fresh.files.writeAt (ReportFiles.pathOf r.directory t) old.offset old.waiting with
  | .ok files => return { fresh with files }
  | .error _ => return fresh

def replaceFlows (r : OpenReport) (rows : List PairLine) : Except Fault OpenReport := do
  let r ← r.flush .flows
  let r ← r.reopen spills .flows
  let r ← r.append spills .flows (rows.map ReportTable.odFields)
  r.flush .flows

/-- The report after a call. A call that fails leaves it as it was. -/
def settle (r : OpenReport) : Except Fault OpenReport → OpenReport × Except Fault Unit
  | .ok r' => (r', .ok ())
  | .error fault => (r, .error fault)

/-- Reports go to open files. -/
def sink : Sink OpenReport Fault where
  writeMetrics r m := r.settle (r.append spills .metrics [ReportTable.metricsFields m])
  writeFlows r rows := r.settle (r.replaceFlows spills rows)
  writeEdges r rows := r.settle (r.append spills .edges (rows.map ReportTable.edgeFields))
  writeClusters r rows := r.settle (r.append spills .clusters (rows.map ReportTable.clusterFields))
  writeTrips r rows := r.settle (r.append spills .trips (rows.map ReportTable.tripFields))
  finish r := r.settle r.finish

/-- The files of a report just opened, with all that waits for them. -/
def ofFiles (r : ReportFiles) : OpenReport :=
  ⟨r.files, r.directory, fun t => ⟨0, encode (r.buffers.get t)⟩⟩

/-! ## Texts -/

variable {r : OpenReport} {texts : ReportTable → String} {t : ReportTable}

/-- The texts of the tables. Each handle stands at the end of its file, which holds some of a text,
and the rest waits. -/
def Holds (r : OpenReport) (texts : ReportTable → String) : Prop :=
  ∀ t, ∃ bytes, r.files.read (ReportFiles.pathOf r.directory t) = .ok bytes ∧
    (r.handles t).offset = bytes.length ∧ bytes ++ (r.handles t).waiting = encode (texts t)

/-- The file of a table for which nothing waits holds its text. -/
theorem Holds.read (holds : r.Holds texts) (nothing : (r.handles t).waiting = []) :
    r.files.read (ReportFiles.pathOf r.directory t) = .ok (encode (texts t)) := by
  obtain ⟨bytes, held, -, parts⟩ := holds t
  rw [nothing, List.append_nil] at parts
  rw [held, parts]

theorem Holds.put (holds : r.Holds texts) (t : ReportTable) (text : String) :
    Holds { r with handles := Function.update r.handles t ((r.handles t).put text) }
      (Function.update texts t (texts t ++ text)) := by
  intro u
  obtain ⟨bytes, held, place, parts⟩ := holds u
  refine ⟨bytes, held, ?_⟩
  by_cases same : u = t
  · subst same
    simp only [Function.update_self]
    rw [Text.Utf8.encode_append, ← parts]
    exact ⟨place, (List.append_assoc ..).symm⟩
  · simp only [Function.update_of_ne same]
    exact ⟨place, parts⟩

/-- However many bytes are written, the texts stay. -/
theorem pour_ok (holds : r.Holds texts) (t : ReportTable) (n : Nat) :
    ∃ r', r.pour t n = .ok r' ∧ r'.Holds texts ∧ r'.directory = r.directory ∧
      (r'.handles t).waiting = (r.handles t).waiting.drop n ∧
      ∀ u ≠ t, r'.handles u = r.handles u := by
  obtain ⟨bytes, held, place, parts⟩ := holds t
  obtain ⟨files, written, grown, beside⟩ :=
    FileTree.writeAt_end held ((r.handles t).waiting.take n)
  rw [← place] at written
  refine ⟨_, bind_eq_ok.mpr ⟨files, written, rfl⟩, ?_, rfl, ?_, ?_⟩
  · intro u
    by_cases same : u = t
    · subst same
      refine ⟨bytes ++ (r.handles u).waiting.take n, grown, ?_⟩
      simp only [Function.update_self]
      rw [place, List.length_append, List.append_assoc, List.take_append_drop]
      exact ⟨rfl, parts⟩
    · obtain ⟨other, held', place', parts'⟩ := holds u
      refine ⟨other, beside _ _ (ReportFiles.location_ne same) held', ?_⟩
      simp only [Function.update_of_ne same]
      exact ⟨place', parts'⟩
  · simp only [Function.update_self]
  · intro u other
    exact Function.update_of_ne other ..

theorem push_ok (spills : Handle → Nat) (holds : r.Holds texts) (t : ReportTable)
    (text : String) :
    ∃ r', r.push spills t text = .ok r' ∧
      r'.Holds (Function.update texts t (texts t ++ text)) ∧ r'.directory = r.directory := by
  obtain ⟨r', pushed, holds', directory, -⟩ :=
    pour_ok (holds.put t text) t (spills ((r.handles t).put text))
  exact ⟨r', pushed, holds', directory⟩

theorem append_ok (spills : Handle → Nat) (holds : r.Holds texts) (t : ReportTable)
    (rows : List (List String)) :
    ∃ r', r.append spills t rows = .ok r' ∧
      r'.Holds (Function.update texts t (texts t ++ Csv.writeRecords rows)) ∧
      r'.directory = r.directory := by
  induction rows generalizing r texts with
  | nil =>
    have none : Csv.writeRecords [] = "" := rfl
    rw [none, String.append_empty, Function.update_eq_self]
    exact ⟨r, rfl, holds, rfl⟩
  | cons row rows ih =>
    obtain ⟨next, pushed, holds, directory⟩ := push_ok spills holds t (Csv.writeRecord row)
    obtain ⟨r', rest, holds', directory'⟩ := ih holds
    rw [Function.update_idem, Function.update_self, String.append_assoc,
      ← Csv.writeRecords_cons] at holds'
    refine ⟨r', ?_, holds', directory'.trans directory⟩
    rw [append, List.foldlM_cons, bind_eq_ok]
    exact ⟨next, pushed, rest⟩

/-- Nothing waits for a table that was flushed. -/
theorem flush_ok (holds : r.Holds texts) (t : ReportTable) :
    ∃ r', r.flush t = .ok r' ∧ r'.Holds texts ∧ r'.directory = r.directory ∧
      (r'.handles t).waiting = [] ∧ ∀ u ≠ t, r'.handles u = r.handles u := by
  obtain ⟨r', poured, holds', directory, waiting, others⟩ :=
    pour_ok holds t (r.handles t).waiting.length
  rw [List.drop_length] at waiting
  exact ⟨r', poured, holds', directory, waiting, others⟩

/-- A handle for which nothing waits can be closed behind a new one for the same file. -/
theorem reopen_ok (spills : Handle → Nat) (holds : r.Holds texts)
    (nothing : (r.handles t).waiting = []) :
    ∃ r', r.reopen spills t = .ok r' ∧ r'.Holds (Function.update texts t t.header) ∧
      r'.directory = r.directory := by
  obtain ⟨bytes, held, -, -⟩ := holds t
  obtain ⟨files, written⟩ := FileTree.write_of_read held []
  have emptied : Holds ⟨files, r.directory, Function.update r.handles t ⟨0, []⟩⟩
      (Function.update texts t "") := by
    intro u
    by_cases same : u = t
    · subst same
      refine ⟨[], FileTree.read_written written, ?_⟩
      simp only [Function.update_self]
      exact ⟨rfl, rfl⟩
    · obtain ⟨other, held', place, parts⟩ := holds u
      refine ⟨other, FileTree.read_beside written (ReportFiles.location_ne same) held', ?_⟩
      simp only [Function.update_of_ne same]
      exact ⟨place, parts⟩
  obtain ⟨fresh, pushed, holds', directory⟩ := push_ok spills emptied t t.header
  rw [Function.update_idem, Function.update_self, String.empty_append] at holds'
  refine ⟨fresh, ?_, holds', directory⟩
  rw [reopen, bind_eq_ok]
  refine ⟨files, written, bind_eq_ok.mpr ⟨fresh, pushed, ?_⟩⟩
  dsimp only
  rw [nothing]
  rfl

theorem replaceFlows_ok (spills : Handle → Nat) (holds : r.Holds texts)
    (rows : List PairLine) :
    ∃ r', r.replaceFlows spills rows = .ok r' ∧
      r'.Holds (Function.update texts .flows (ReportFiles.flowsText rows)) ∧
      r'.directory = r.directory ∧ (r'.handles .flows).waiting = [] := by
  obtain ⟨emptied, flushed, holds, stays, nothing, -⟩ := flush_ok holds .flows
  obtain ⟨restarted, opened, holds, stays'⟩ := reopen_ok spills holds nothing
  obtain ⟨filled, appended, holds, stays''⟩ :=
    append_ok spills holds .flows (rows.map ReportTable.odFields)
  obtain ⟨r', moved, holds, directory, nothing', -⟩ := flush_ok holds .flows
  rw [Function.update_idem, Function.update_self] at holds
  refine ⟨r', ?_, ?_, ?_, nothing'⟩
  · simp only [replaceFlows, flushed, opened, appended, bind, Except.bind, moved]
  · rw [ReportFiles.flowsText, Csv.writeRecords_cons]
    exact holds
  · rw [directory, stays'', stays', stays]

theorem flushEach_ok (holds : r.Holds texts) (tables : List ReportTable) :
    ∃ r', tables.foldlM flush r = .ok r' ∧ r'.Holds texts ∧ r'.directory = r.directory ∧
      ∀ t, t ∈ tables ∨ (r.handles t).waiting = [] → (r'.handles t).waiting = [] := by
  induction tables generalizing r with
  | nil => exact ⟨r, rfl, holds, rfl, fun t => Or.rec nofun id⟩
  | cons u tables ih =>
    obtain ⟨next, flushed, holds, directory, nothing, others⟩ := flush_ok holds u
    obtain ⟨r', rest, holds', directory', empty⟩ := ih holds
    refine ⟨r', ?_, holds', directory'.trans directory, ?_⟩
    · rw [List.foldlM_cons, bind_eq_ok]
      exact ⟨next, flushed, rest⟩
    · intro t waits
      apply empty
      by_cases same : t = u
      · subst same
        exact .inr nothing
      · rw [others t same]
        exact waits.imp_left fun mem => (List.mem_cons.mp mem).resolve_left same

/-- Flushing does nothing where nothing waits. -/
theorem flush_settled (nothing : (r.handles t).waiting = []) : r.flush t = .ok r := by
  have same : Function.update r.handles t ⟨(r.handles t).offset, []⟩ = r.handles := by
    rw [← nothing]
    exact Function.update_eq_self ..
  have unwritten : r.files.writeAt (ReportFiles.pathOf r.directory t) (r.handles t).offset [] =
      .ok r.files := rfl
  simp only [flush, pour, nothing, List.take_nil, List.drop_nil, unwritten, List.length_nil,
    Nat.add_zero, same]
  rfl

theorem finish_settled (nothing : ∀ t, (r.handles t).waiting = []) : r.finish = .ok r := by
  rw [finish]
  induction ReportTable.all with
  | nil => rfl
  | cons t tables ih =>
    rw [List.foldlM_cons, flush_settled (nothing t)]
    exact ih

theorem sink_keeps (spills : Handle → Nat) (directory : Path) :
    (sink spills).Keeps OpenReport.files directory fun r texts =>
      r.directory = directory ∧ r.Holds texts where
  add {texts r call t rows} := by
    rintro ⟨rfl, holds⟩ added
    obtain ⟨r', appended, holds', same⟩ := append_ok spills holds t rows
    have made : call.make (sink spills) r = r.settle (r.append spills t rows) := by
      cases call <;> cases added <;> rfl
    rw [made, appended]
    exact ⟨r', rfl, same, holds'⟩
  flows {texts r} rows := by
    rintro ⟨rfl, holds⟩
    obtain ⟨r', written, holds', same, nothing⟩ := replaceFlows_ok spills holds rows
    have held := holds'.read nothing
    rw [same, Function.update_self] at held
    exact ⟨r', congrArg r.settle written, ⟨same, holds'⟩, held⟩
  finish {texts r} := by
    rintro ⟨rfl, holds⟩
    obtain ⟨r', finished, holds', same, nothing⟩ := flushEach_ok holds ReportTable.all
    have nothing (t : ReportTable) : (r'.handles t).waiting = [] := nothing t (.inl t.mem_all)
    refine ⟨r', congrArg r.settle finished, ⟨same, holds'⟩, ?_, r', ?_, fun _ => rfl⟩
    · intro t
      rw [← same]
      exact holds'.read (nothing t)
    · exact congrArg r'.settle (finish_settled nothing)

theorem ofFiles_holds {opened : ReportFiles} (holds : opened.Holds ReportTable.header)
    (waiting : opened.buffers = .headers) : (ofFiles opened).Holds ReportTable.header := by
  intro t
  obtain ⟨bytes, held, parts⟩ := holds t
  rw [waiting, Buffers.get_headers] at parts
  obtain rfl : bytes = [] := List.append_left_eq_self.mp parts
  refine ⟨[], held, rfl, ?_⟩
  show encode (opened.buffers.get t) = _
  rw [waiting, Buffers.get_headers]

end OpenReport

/-- After any calls to a report that was just opened, once it is finished, each file says the lines
of all calls behind its header, or for flows those of the last call. A snapshot is there at once, and
finishing again changes nothing. So it is as well for a report that is written through open files,
whenever what waits for them is written. -/
theorem files_of_calls {files files' : FileTree} {directory : Path} {opened : ReportFiles}
    (created : ReportFiles.create files directory = (files', .ok opened)) :
    ReportFiles.sink.Leaves ReportFiles.files directory opened ∧
      ∀ spills, (OpenReport.sink spills).Leaves OpenReport.files directory (.ofFiles opened) := by
  obtain ⟨same, holds⟩ := ReportFiles.create_ok created
  constructor
  · exact (ReportFiles.sink_keeps directory).leaves ⟨same, holds⟩
  · intro spills
    have waiting := ReportFiles.buffers_create created
    exact (OpenReport.sink_keeps spills directory).leaves
      ⟨same, OpenReport.ofFiles_holds holds waiting⟩

/-- Metrics before and behind a snapshot that takes the place of another one. -/
def sampleCalls : List ReportCall :=
  [.flows [⟨0, 1, 8, 3⟩], .metrics ⟨1, 4, 0.5⟩, .finish, .flows [⟨0, 1, 8, 2.5⟩],
    .metrics ⟨2, 1, 0.25⟩]

theorem text_sampleCalls :
    (ReportLines.ofCalls sampleCalls).text .flows = "origin,destination,hour,flow\n0,1,8,2.5\n" ∧
      (ReportLines.ofCalls sampleCalls).text .metrics =
        "step,loss,mad\n1,4,0.5\n2,1,0.25\n" := by
  decide

theorem files_of_calls_sample :
    ∃ files report, ReportFiles.create .empty sampleReport = (files, .ok report) ∧
      (∃ r, ReportCall.makeEach ReportFiles.sink report (sampleCalls ++ [.finish]) = (r, .ok ()) ∧
        r.files.read (sampleReport.join "od_flows.csv") =
          .ok (encode "origin,destination,hour,flow\n0,1,8,2.5\n") ∧
        r.files.read (sampleReport.join "fit_metrics.csv") =
          .ok (encode "step,loss,mad\n1,4,0.5\n2,1,0.25\n")) ∧
      ∃ r, ReportCall.makeEach (OpenReport.sink fun h => h.waiting.length / 2) (.ofFiles report)
          (sampleCalls ++ [.finish]) = (r, .ok ()) ∧
        r.files.read (sampleReport.join "od_flows.csv") =
          .ok (encode "origin,destination,hour,flow\n0,1,8,2.5\n") := by
  obtain ⟨files, report, created⟩ := ReportFiles.create_sample
  obtain ⟨leaves, through⟩ := files_of_calls created
  have through := through fun h => h.waiting.length / 2
  obtain ⟨r, made⟩ := leaves.succeeds (sampleCalls ++ [.finish])
  obtain ⟨r', made'⟩ := through.succeeds (sampleCalls ++ [.finish])
  obtain ⟨flows, metrics⟩ := text_sampleCalls
  refine ⟨files, report, created, ⟨r, made, ?_, ?_⟩, r', made', ?_⟩
  · rw [← flows]
    exact (leaves.finished made).flows.read fun _ _ => PairLine.eq_of_isRow
  · rw [← metrics]
    exact (leaves.finished made).metrics.read fun _ _ => Metrics.eq_of_isRow
  · rw [← flows]
    exact (through.finished made').flows.read fun _ _ => PairLine.eq_of_isRow

end RoadFlow
