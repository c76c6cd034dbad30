import Mathlib.Logic.Function.Basic
import RoadFlow.Proofs.Csv.RoundTrip
import RoadFlow.Proofs.Storage.Keeping
import RoadFlow.Report.Files

/-!
# What the files of a report hold

Each table of a report has a text, of which some is in its file and the rest waits (`Holds`). Once a
report is open its files can be written, so every operation succeeds and does to the texts what it
says, and once it is finished the files hold all of them (`finish_ok`).
-/

namespace RoadFlow

open Storage (FileTree Path Location)
open Text.Utf8 (encode)

/-! ## Paths -/

theorem Storage.Path.location_join {name : String} (p : Path) (rooted : name.startsWith "/" = false)
    (single : Path.split name = [name]) :
    (p.join name).location = Path.step p.location name := by
  have blank (here : Location) : Path.step here "" = here := rfl
  rw [Path.join, rooted, if_neg Bool.false_ne_true, single, Path.location, ← List.append_assoc,
    List.foldl_append, List.foldl_cons, List.foldl_nil, Path.location]
  by_cases ends : p.names.getLast? = some ""
  · have parts := List.dropLast_append_getLast? "" ends
    rw [if_pos ends]
    conv_rhs => rw [← parts, ← List.append_assoc, List.foldl_append, List.foldl_cons,
      List.foldl_nil, blank]
  · rw [if_neg ends]

namespace ReportTable

theorem mem_all (t : ReportTable) : t ∈ all := by
  cases t <;> decide

theorem nodup_all : all.Nodup := by decide

theorem fileName_injective {t u : ReportTable} (same : t.fileName = u.fileName) : t = u := by
  cases t <;> cases u <;> first | rfl | exact absurd same (by decide)

end ReportTable

namespace Buffers

theorem get_headers (t : ReportTable) : headers.get t = t.header := by
  cases t <;> rfl

theorem get_set (b : Buffers) (t u : ReportTable) (text : String) :
    (b.set t text).get u = if u = t then text else b.get u := by
  cases t <;> cases u <;> rfl

end Buffers

namespace ReportFiles

variable {r r' : ReportFiles} {files files' : FileTree} {directory : Path} {t u : ReportTable}
  {texts : ReportTable → String}

theorem location_pathOf (directory : Path) (t : ReportTable) :
    (pathOf directory t).location = directory.location ++ [t.fileName] := by
  have plain : Path.isBlank t.fileName = false ∧ t.fileName ≠ ".." := by
    cases t <;> decide
  rw [pathOf, Path.location_join, Path.step, plain.1, if_neg Bool.false_ne_true, if_neg plain.2]
  · cases t <;> with_unfolding_all rfl
  · cases t <;> decide

theorem location_ne (differ : t ≠ u) :
    (pathOf directory t).location ≠ (pathOf directory u).location := by
  rw [location_pathOf, location_pathOf]
  intro same
  exact differ (ReportTable.fileName_injective (List.cons.inj (List.append_cancel_left same)).1)

/-! ## Texts -/

/-- The texts of the tables, of which some is in the files and the rest waits. -/
def Holds (r : ReportFiles) (texts : ReportTable → String) : Prop :=
  ∀ t, ∃ bytes, r.files.read (pathOf r.directory t) = .ok bytes ∧
    bytes ++ encode (r.buffers.get t) = encode (texts t)

/-- The file of a table for which nothing waits holds its text. -/
theorem Holds.read (holds : r.Holds texts) (empty : r.buffers.get t = "") :
    r.files.read (pathOf r.directory t) = .ok (encode (texts t)) := by
  obtain ⟨bytes, held, parts⟩ := holds t
  have none : encode "" = [] := rfl
  rw [empty, none, List.append_nil] at parts
  rw [held, parts]

/-- A table's file can be written over, which leaves the other tables. -/
theorem Holds.write {bytes : Storage.Bytes} {waiting text : String} (holds : r.Holds texts)
    (t : ReportTable) (parts : bytes ++ encode waiting = encode text) :
    ∃ files, r.files.write (pathOf r.directory t) bytes = .ok files ∧
      Holds ⟨files, r.directory, r.buffers.set t waiting⟩ (Function.update texts t text) := by
  obtain ⟨old, held, -⟩ := holds t
  obtain ⟨files, written⟩ := FileTree.write_of_read held bytes
  refine ⟨files, written, fun u => ?_⟩
  by_cases same : u = t
  · subst same
    refine ⟨bytes, FileTree.read_written written, ?_⟩
    rw [Buffers.get_set, if_pos rfl, Function.update_self, parts]
  · obtain ⟨other, read, parts⟩ := holds u
    refine ⟨other, FileTree.read_beside written (location_ne same) read, ?_⟩
    rw [Buffers.get_set, if_neg same, Function.update_of_ne same, parts]

theorem Holds.append (holds : r.Holds texts) (t : ReportTable) (rows : List (List String)) :
    (r.append t rows).Holds (Function.update texts t (texts t ++ Csv.writeRecords rows)) := by
  intro u
  obtain ⟨bytes, held, parts⟩ := holds u
  refine ⟨bytes, held, ?_⟩
  rw [ReportFiles.append, Buffers.get_set]
  by_cases same : u = t
  · subst same
    rw [if_pos rfl, Function.update_self, Text.Utf8.encode_append, Text.Utf8.encode_append,
      ← List.append_assoc, parts]
  · rw [if_neg same, Function.update_of_ne same, parts]

/-- The first rows of a table stand behind its header. -/
theorem Holds.append_header (holds : r.Holds texts) (t : ReportTable)
    (fresh : texts t = t.header) (rows : List (List String)) :
    (r.append t rows).Holds (Function.update texts t (Csv.writeRecords (t.columns :: rows))) := by
  rw [Csv.writeRecords_cons, ← ReportTable.header, ← fresh]
  exact holds.append t rows

/-! ## Operations that succeed -/

/-- A file that is written as it is held leaves the tree as it was. -/
theorem entry?_rewritten {path : Path} {bytes : Storage.Bytes} (held : files.read path = .ok bytes)
    (written : files.write path bytes = .ok files') (l : Location) :
    files'.entry? l = files.entry? l := by
  rw [(FileTree.write_ok written).2]
  split
  · rename_i here
    rw [here, FileTree.file?_eq_some.mp (FileTree.read_ok held)]
  · rfl

theorem flush_ok (holds : r.Holds texts) (t : ReportTable) :
    ∃ r', r.flush t = (r', .ok ()) ∧ r'.Holds texts ∧ r'.directory = r.directory ∧
      r'.buffers = r.buffers.set t "" ∧
      (r.buffers.get t = "" → ∀ l, r'.files.entry? l = r.files.entry? l) := by
  obtain ⟨bytes, held, parts⟩ := holds t
  have whole : bytes ++ encode (r.buffers.get t) ++ encode "" = encode (texts t) :=
    (List.append_nil _).trans parts
  obtain ⟨files, written, later⟩ := holds.write t whole
  rw [Function.update_eq_self] at later
  refine ⟨_, ?_, later, rfl, rfl, ?_⟩
  · delta flush
    simp only [held, bind, Except.bind, written]
  · intro empty
    have none : encode "" = [] := rfl
    rw [empty, none, List.append_nil] at written
    exact entry?_rewritten held written

theorem restart_ok (holds : r.Holds texts) (t : ReportTable) :
    ∃ r', r.restart t = (r', .ok ()) ∧ r'.Holds (Function.update texts t t.header) ∧
      r'.directory = r.directory := by
  obtain ⟨files, written, later⟩ := holds.write t (rfl : [] ++ _ = _)
  refine ⟨_, ?_, later, rfl⟩
  delta restart
  rw [written]

theorem flushEach_cons (r : ReportFiles) (t : ReportTable) (tables : List ReportTable) :
    r.flushEach (t :: tables) =
      match r.flush t with
      | (r, .error fault) => (r, .error fault)
      | (r, .ok ()) => r.flushEach tables := (rfl)

theorem flushEach_ok (holds : r.Holds texts) (tables : List ReportTable) :
    ∃ r', r.flushEach tables = (r', .ok ()) ∧ r'.Holds texts ∧ r'.directory = r.directory ∧
      (∀ t, t ∈ tables ∨ r.buffers.get t = "" → r'.buffers.get t = "") ∧
      ((∀ t, r.buffers.get t = "") → ∀ l, r'.files.entry? l = r.files.entry? l) := by
  induction tables generalizing r with
  | nil => exact ⟨r, rfl, holds, rfl, fun t => Or.rec nofun id, fun _ _ => rfl⟩
  | cons u tables ih =>
    obtain ⟨next, flushed, later, directory, buffers, same⟩ := flush_ok holds u
    obtain ⟨r', rest, last, directory', empty, same'⟩ := ih later
    refine ⟨r', ?_, last, directory'.trans directory, fun t waits => empty t ?_, ?_⟩
    · rw [flushEach_cons, flushed]
      exact rest
    · rw [buffers, Buffers.get_set]
      by_cases same : t = u
      · exact .inr (if_pos same)
      · rw [if_neg same]
        exact waits.imp_left fun mem => (List.mem_cons.mp mem).resolve_left same
    · intro settled l
      rw [same', same (settled u)]
      intro t
      rw [buffers, Buffers.get_set, settled t, ite_self]

/-- A finished report holds all texts in its files. -/
theorem finish_ok (holds : r.Holds texts) :
    ∃ r', r.finish = (r', .ok ()) ∧ r'.Holds texts ∧ r'.directory = r.directory ∧
      ∀ t, r'.files.read (pathOf r.directory t) = .ok (encode (texts t)) := by
  obtain ⟨r', flushed, later, directory, empty, -⟩ := flushEach_ok holds ReportTable.all
  refine ⟨r', flushed, later, directory, fun t => ?_⟩
  rw [← directory]
  exact later.read (empty t (.inl t.mem_all))

/-- Finishing a report again changes no file. -/
theorem finish_again (holds : r.Holds texts) (finished : r.finish = (r', .ok ())) :
    ∃ r'', r'.finish = (r'', .ok ()) ∧
      ∀ l, FileTree.entry? r''.files l = FileTree.entry? r'.files l := by
  obtain ⟨first, flushed, later, -, empty, -⟩ := flushEach_ok holds ReportTable.all
  rw [finish, flushed] at finished
  cases finished
  obtain ⟨r'', again, -, -, -, same⟩ := flushEach_ok later ReportTable.all
  exact ⟨r'', again, same fun t => empty t (.inl t.mem_all)⟩

theorem close_of_flushEach {tables : List ReportTable}
    (flushed : r.flushEach tables = (r', .ok ())) : r.close tables = r'.files := by
  induction tables generalizing r with
  | nil =>
    cases flushed
    rfl
  | cons t tables ih =>
    rw [flushEach_cons] at flushed
    rcases first : r.flush t with ⟨next, fault | done⟩
    · rw [first] at flushed
      cases flushed
    · rw [first] at flushed
      rw [close, List.foldl_cons, first]
      exact ih flushed

/-- A report that is closed leaves all texts in its files. -/
theorem close_ok (holds : r.Holds texts) (t : ReportTable) :
    (r.close ReportTable.all).read (pathOf r.directory t) = .ok (encode (texts t)) := by
  obtain ⟨r', flushed, -, -, held⟩ := finish_ok holds
  rw [close_of_flushEach flushed]
  exact held t

/-- The text of the table of flows when it holds a snapshot. -/
def flowsText (rows : List PairLine) : String :=
  Csv.writeRecords (ReportTable.flows.columns :: rows.map ReportTable.odFields)

/-- Whatever snapshot there was, the new one takes its place. -/
theorem replaceFlows_ok (holds : r.Holds texts) (rows : List PairLine) :
    ∃ r', r.replaceFlows rows = (r', .ok ()) ∧
      r'.Holds (Function.update texts .flows (flowsText rows)) ∧ r'.directory = r.directory ∧
      r'.buffers.get .flows = "" := by
  obtain ⟨emptied, flushed, holds, directory, -⟩ := flush_ok holds .flows
  obtain ⟨restarted, started, holds, directory'⟩ := restart_ok holds .flows
  obtain ⟨r', moved, holds, directory'', buffers, -⟩ :=
    flush_ok (holds.append .flows (rows.map ReportTable.odFields)) .flows
  rw [Function.update_idem, Function.update_self] at holds
  refine ⟨r', ?_, ?_, directory''.trans (directory'.trans directory), ?_⟩
  · rw [replaceFlows, flushed]
    dsimp only
    rw [started]
    exact moved
  · rw [flowsText, Csv.writeRecords_cons]
    exact holds
  · rw [buffers, Buffers.get_set, if_pos rfl]

/-! ## Opening -/

theorem createEach_cons (files : FileTree) (directory : Path) (t : ReportTable)
    (tables : List ReportTable) :
    createEach files directory (t :: tables) =
      match files.write (pathOf directory t) [] with
      | .error fault => (files, [], .error fault)
      | .ok files =>
        let (files, opened, result) := createEach files directory tables
        (files, t :: opened, result) := (rfl)

theorem createEach_ok {tables opened : List ReportTable} (different : tables.Nodup)
    (created : createEach files directory tables = (files', opened, .ok ())) :
    (∀ t ∈ tables, files'.read (pathOf directory t) = .ok []) ∧
      ∀ t ∉ tables, files.read (pathOf directory t) = .ok [] →
        files'.read (pathOf directory t) = .ok [] := by
  induction tables generalizing files opened with
  | nil =>
    cases created
    exact ⟨nofun, fun _ _ held => held⟩
  | cons u tables ih =>
    rw [createEach_cons] at created
    cases written : files.write (pathOf directory u) [] with
    | error fault => simp [written] at created
    | ok started =>
      obtain ⟨fresh, different⟩ := List.nodup_cons.mp different
      rcases rest : createEach started directory tables with ⟨final, others, result⟩
      simp only [written, rest, Prod.mk.injEq] at created
      obtain ⟨rfl, -, rfl⟩ := created
      obtain ⟨made, kept⟩ := ih different rest
      refine ⟨fun t mem => ?_, fun t absent held => ?_⟩
      · rcases List.mem_cons.mp mem with rfl | mem
        · exact kept t fresh (FileTree.read_written written)
        · exact made t mem
      · rw [List.mem_cons, not_or] at absent
        exact kept t absent.2 (FileTree.read_beside written (location_ne absent.1) held)

/-- A report that was opened holds the headers. -/
theorem create_ok (created : create files directory = (files', .ok r)) :
    r.directory = directory ∧ r.Holds ReportTable.header := by
  rw [create] at created
  split at created
  · cases created
  rename_i nested made
  split at created
  · rename_i final opened done
    cases created
    obtain ⟨empty, -⟩ := createEach_ok ReportTable.nodup_all done
    refine ⟨rfl, fun t => ⟨[], empty t t.mem_all, ?_⟩⟩
    rw [List.nil_append, Buffers.get_headers]
  · cases created

/-- Nothing but the headers waits in a report that was opened. -/
theorem buffers_create (created : create files directory = (files', .ok r)) :
    r.buffers = .headers := by
  rw [create] at created
  split at created
  · cases created
  split at created
  · cases created
    rfl
  · cases created

end ReportFiles

/-- A directory for a report. -/
def sampleReport : Path := ⟨[], ["report"]⟩

theorem ReportFiles.create_sample :
    ∃ files report, create .empty sampleReport = (files, .ok report) := by
  have opens : (create .empty sampleReport).2.isOk = true := by decide +kernel
  rcases created : create .empty sampleReport with ⟨files, fault | report⟩
  · rw [created] at opens
    cases opens
  · exact ⟨files, report, rfl⟩

end RoadFlow
