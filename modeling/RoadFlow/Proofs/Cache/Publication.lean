import Mathlib.Logic.Function.Basic
import Mathlib.Logic.Relation
import RoadFlow.Proofs.Cache.Saving
import RoadFlow.Proofs.Storage.Keeping

/-!
# Savers at work together

Any number of savers publish matrices at one path while readers read there. They take turns in any
order, one operation at a time, and each may stop for good at any point. The path holds what it held
at first or the whole file of one of the savers at every moment (`savers_publish_whole`).
-/

namespace RoadFlow.Cache

open Storage (FileTree Path Location)

/-! ## Savers -/

/-- Who saves a matrix for a key. -/
structure Saver where
  key : Key
  matrix : AssignmentMatrix
  valid : matrix.Valid
  storable : Archive.Storable key.network matrix

/-- The bytes that a saver is to store. -/
def Saver.Stores (s : Saver) (bytes : Bytes) : Prop := write s.key s.matrix = .ok bytes

/-- How far a saver has come. -/
inductive Phase where
  | begun
  /-- It has made the directory for its bytes. -/
  | placed (bytes : Bytes)
  /-- It has a file of its own. The buffer and then the rest are still to be written there. -/
  | writing (temporary : Path) (buffer rest : Bytes)
  /-- All its bytes are in its own file. -/
  | flushed (temporary : Path)
  /-- Its file was moved onto the path. -/
  | published
  | failed

/-- The file that a saver has to itself. -/
def Phase.own? : Phase → Option Path
  | .writing temporary _ _ | .flushed temporary => some temporary
  | _ => none

/-- One operation of a saver. No entry has the name of a new file. -/
inductive Saver.Step (s : Saver) (target : Path) : FileTree × Phase → FileTree × Phase → Prop
  | place {files files' : FileTree} {bytes : Bytes} (stores : s.Stores bytes)
      (made : (FileStep.makeDirectories (directoryOf target)).run files = (files', .ok ())) :
      Step s target (files, .begun) (files', .placed bytes)
  | misplace {files files' : FileTree} {fault : Storage.Fault}
      (made : (FileStep.makeDirectories (directoryOf target)).run files = (files', .error fault)) :
      Step s target (files, .begun) (files', .failed)
  | create {files files' : FileTree} {bytes : Bytes} {temporary : Path} {name : String}
      (inside : temporary = (directoryOf target).join name)
      (fresh : files.entry? temporary.location = none)
      (away : temporary.location ≠ target.location)
      (created : (FileStep.create temporary).run files = (files', .ok ())) :
      Step s target (files, .placed bytes) (files', .writing temporary [] bytes)
  | buffer {files : FileTree} {temporary : Path} {buffer piece rest : Bytes} :
      Step s target (files, .writing temporary buffer (piece ++ rest))
        (files, .writing temporary (buffer ++ piece) rest)
  | append {files files' : FileTree} {temporary : Path} {piece buffer rest : Bytes}
      (appended : (FileStep.append temporary piece).run files = (files', .ok ())) :
      Step s target (files, .writing temporary (piece ++ buffer) rest)
        (files', .writing temporary buffer rest)
  | flush {files : FileTree} {temporary : Path} :
      Step s target (files, .writing temporary [] []) (files, .flushed temporary)
  | rename {files files' : FileTree} {temporary : Path}
      (renamed : (FileStep.rename temporary target).run files = (files', .ok ())) :
      Step s target (files, .flushed temporary) (files', .published)
  | giveUp {files : FileTree} {phase : Phase} {temporary : Path}
      (own : phase.own? = some temporary) :
      Step s target (files, phase) (files.remove temporary, .failed)

/-- What there is of a saver's bytes. -/
def Phase.Holds (s : Saver) (files : FileTree) : Phase → Prop
  | .placed bytes => s.Stores bytes
  | .writing temporary buffer rest => ∃ written,
      files.file? temporary.location = some written ∧ s.Stores (written ++ buffer ++ rest)
  | .flushed temporary => ∃ bytes, files.file? temporary.location = some bytes ∧ s.Stores bytes
  | _ => True

section

variable {s : Saver} {target temporary : Path} {files files' : FileTree} {phase phase' : Phase}
  {bytes : Bytes} {l : Location}

/-- What one saver's step keeps of another's bytes, whose own file it does not touch. -/
theorem Phase.Holds.keep (holds : phase.Holds s files)
    (same : ∀ temporary, phase.own? = some temporary →
      files'.file? temporary.location = files.file? temporary.location) :
    phase.Holds s files' := by
  cases phase with
  | writing temporary buffer rest =>
    have same := same temporary rfl
    simpa only [Holds, same] using holds
  | flushed temporary =>
    have same := same temporary rfl
    simpa only [Holds, same] using holds
  | _ => exact holds

theorem Phase.Holds.exists_file (holds : phase.Holds s files) (own : phase.own? = some temporary) :
    ∃ bytes, files.file? temporary.location = some bytes := by
  cases phase with
  | writing =>
    cases own
    obtain ⟨written, held, -⟩ := holds
    exact ⟨written, held⟩
  | flushed =>
    cases own
    obtain ⟨bytes, held, -⟩ := holds
    exact ⟨bytes, held⟩
  | _ => cases own

namespace Saver.Step

theorem keeps (step : s.Step target (files, phase) (files', phase')) : files.Keeps files' := by
  cases step with
  | place _ made | misplace made =>
    obtain rfl : (files.makeDirectories (directoryOf target)).1 = files' := congrArg Prod.fst made
    exact FileTree.keeps_makeDirectories
  | create _ _ _ created => exact FileTree.keeps_write (settle_eq_ok.mp created)
  | append appended =>
    obtain ⟨held, -, written⟩ := bind_eq_ok.mp (settle_eq_ok.mp appended)
    exact FileTree.keeps_write written
  | rename renamed => exact FileTree.keeps_rename (settle_eq_ok.mp renamed)
  | giveUp => exact FileTree.keeps_remove
  | buffer | flush => exact .refl files

/-- A step changes the saver's own file, and that of the path when it is the last one. -/
theorem file?_other (step : s.Step target (files, phase) (files', phase'))
    (mine : ∀ temporary, phase.own? = some temporary ∨ phase'.own? = some temporary →
      l ≠ temporary.location)
    (target : phase' = .published → l ≠ target.location) : files'.file? l = files.file? l := by
  cases step with
  | place _ made | misplace made =>
    obtain rfl : (files.makeDirectories _).1 = files' := congrArg Prod.fst made
    exact FileTree.file?_makeDirectories
  | create _ _ _ created => rw [FileStep.file?_create created, if_neg (mine _ (.inr rfl))]
  | append appended =>
    obtain ⟨held, -, changed⟩ := FileStep.file?_append appended
    rw [changed, if_neg (mine _ (.inl rfl))]
  | rename renamed =>
    obtain ⟨held, -, changed⟩ := FileStep.file?_rename renamed
    rw [changed, if_neg (target rfl), if_neg (mine _ (.inl rfl))]
  | giveUp own => exact FileTree.file?_remove (mine _ (.inl own))
  | buffer | flush => rfl

/-- Whatever a saver writes, its own file and what is still to be written make up its bytes. -/
theorem holds (step : s.Step target (files, phase) (files', phase'))
    (before : phase.Holds s files) : phase'.Holds s files' := by
  cases step with
  | place stores => exact stores
  | create _ _ _ created =>
    refine ⟨[], ?_, before⟩
    rw [FileStep.file?_create created, if_pos rfl]
  | buffer =>
    obtain ⟨written, held, stores⟩ := before
    exact ⟨written, held, by simpa using stores⟩
  | append appended =>
    obtain ⟨written, held, stores⟩ := before
    obtain ⟨held', found, changed⟩ := FileStep.file?_append appended
    obtain rfl : held' = written := Option.some.inj (found.symm.trans held)
    exact ⟨_, by rw [changed, if_pos rfl], by simpa using stores⟩
  | flush =>
    obtain ⟨written, held, stores⟩ := before
    exact ⟨written, held, by simpa using stores⟩
  | misplace | rename | giveUp => exact trivial

/-- The step that publishes leaves all of the saver's bytes at the path. -/
theorem published (step : s.Step target (files, phase) (files', .published))
    (before : phase.Holds s files) : ∃ bytes, s.Stores bytes ∧ files'.read target = .ok bytes := by
  cases step with
  | rename renamed =>
    obtain ⟨bytes, held, stores⟩ := before
    obtain ⟨moved, found, read⟩ := FileTree.read_rename (settle_eq_ok.mp renamed)
    obtain rfl : moved = bytes := Option.some.inj (found.symm.trans held)
    exact ⟨moved, stores, read⟩

/-- Who has published is done. -/
theorem ne_published (step : s.Step target (files, phase) (files', phase')) :
    phase ≠ .published := by
  rintro rfl
  cases step with
  | giveUp own => cases own

/-- A file of one's own is one that was there, or a new one apart from the path. -/
theorem own (step : s.Step target (files, phase) (files', phase'))
    (mine : phase'.own? = some temporary) :
    phase.own? = some temporary ∨
      files.file? temporary.location = none ∧ temporary.location ≠ target.location := by
  cases step with
  | create _ fresh away _ =>
    cases mine
    refine .inr ⟨?_, away⟩
    rw [FileTree.file?, fresh]
  | buffer | append | flush => exact .inl mine
  | place | misplace | rename | giveUp => cases mine

end Saver.Step

end

/-! ## Readers -/

/-- How far a reader has come. A file that it has opened stays open to it, also when another one is
moved onto the path, and keeps its bytes, as no step writes to the file at the path
(`World.Orderly.path_step`). -/
inductive Reading where
  | waiting
  /-- It has seen some of the bytes of the file. -/
  | reading (held seen : Bytes)
  /-- It has come to the end of the file. -/
  | finished (bytes : Bytes)

inductive Reading.Step (files : FileTree) (target : Path) : Reading → Reading → Prop
  | start {held : Bytes} (found : files.read target = .ok held) :
      Step files target .waiting (.reading held [])
  | go {held seen piece : Bytes} (part : seen ++ piece <+: held) :
      Step files target (.reading held seen) (.reading held (seen ++ piece))
  | finish {held : Bytes} : Step files target (.reading held held) (.finished held)

/-- The bytes of the file that a reader has opened. -/
def Reading.bytes? : Reading → Option Bytes
  | .waiting => none
  | .reading bytes _ | .finished bytes => some bytes

/-! ## All of them together -/

/-- The files, and how far all savers and readers have come. -/
structure World (ι κ : Type) where
  files : FileTree
  savers : ι → Phase
  readers : κ → Reading

namespace World

variable {ι κ : Type}

/-- Somebody's turn. -/
inductive Step [DecidableEq ι] [DecidableEq κ] (savers : ι → Saver) (target : Path) :
    World ι κ → World ι κ → Prop
  | save {w : World ι κ} {i : ι} {files : FileTree} {phase : Phase}
      (step : (savers i).Step target (w.files, w.savers i) (files, phase)) :
      Step savers target w { w with files, savers := Function.update w.savers i phase }
  | read {w : World ι κ} {k : κ} {reading : Reading}
      (step : Reading.Step w.files target (w.readers k) reading) :
      Step savers target w { w with readers := Function.update w.readers k reading }

/-- What turns in any order lead to, from files with which nobody has begun. -/
inductive Run [DecidableEq ι] [DecidableEq κ] (savers : ι → Saver) (target : Path)
    (initial : FileTree) : World ι κ → Prop
  | start : Run savers target initial ⟨initial, fun _ => .begun, fun _ => .waiting⟩
  | step {w w' : World ι κ} (before : Run savers target initial w)
      (step : Step savers target w w') : Run savers target initial w'

/-- The file at the path is the one that was there at first, if there was one. -/
structure Untouched (initial files : FileTree) (target : Path) : Prop where
  file? : files.file? target.location = initial.file? target.location
  read : ∀ {bytes}, initial.read target = .ok bytes → files.read target = .ok bytes

/-- The bytes were at the path at first, or are those of a saver that has published. -/
def Whole (savers : ι → Saver) (target : Path) (initial : FileTree) (phases : ι → Phase)
    (bytes : Bytes) : Prop :=
  initial.file? target.location = some bytes ∨
    ∃ i, phases i = .published ∧ (savers i).Stores bytes

/-- What turns keep. -/
structure Orderly (savers : ι → Saver) (target : Path) (initial : FileTree) (w : World ι κ) :
    Prop where
  away : ∀ {i temporary}, (w.savers i).own? = some temporary →
    temporary.location ≠ target.location
  apart : ∀ {i j temporary other}, i ≠ j → (w.savers i).own? = some temporary →
    (w.savers j).own? = some other → temporary.location ≠ other.location
  holds : ∀ i, (w.savers i).Holds (savers i) w.files
  path : Untouched initial w.files target ∨ ∃ i, w.savers i = .published ∧
    ∃ bytes, (savers i).Stores bytes ∧ w.files.read target = .ok bytes
  readers : ∀ {k bytes}, (w.readers k).bytes? = some bytes →
    Whole savers target initial w.savers bytes

variable {savers : ι → Saver} {target : Path} {initial : FileTree} {w w' : World ι κ}

theorem Orderly.start :
    Orderly savers target initial (⟨initial, fun _ => .begun, fun _ => .waiting⟩ : World ι κ) where
  away := nofun
  apart := nofun
  holds := fun _ => trivial
  path := .inl ⟨rfl, fun held => held⟩
  readers := nofun

/-- What is read at the path is whole. -/
theorem Orderly.whole (orderly : w.Orderly savers target initial) {bytes : Bytes}
    (held : w.files.read target = .ok bytes) : Whole savers target initial w.savers bytes := by
  rcases orderly.path with untouched | ⟨i, published, bytes', stores, read⟩
  · exact .inl (untouched.file? ▸ FileTree.read_ok held)
  · obtain rfl : bytes' = bytes := Except.ok.inj (read.symm.trans held)
    exact .inr ⟨i, published, stores⟩

section

variable {i j : ι} {files : FileTree} {phase : Phase} {temporary other : Path}

/-- The own file of a saver that takes a step is not another's, though it may be new. -/
theorem Orderly.apart_step (orderly : w.Orderly savers target initial)
    (step : (savers i).Step target (w.files, w.savers i) (files, phase)) (differ : i ≠ j)
    (mine : (w.savers i).own? = some temporary ∨ phase.own? = some temporary)
    (own : (w.savers j).own? = some other) : temporary.location ≠ other.location := by
  have before (mine : (w.savers i).own? = some temporary) := orderly.apart differ mine own
  rcases mine with mine | mine
  · exact before mine
  rcases step.own mine with mine | ⟨fresh, -⟩
  · exact before mine
  · obtain ⟨bytes, held⟩ := (orderly.holds j).exists_file own
    intro same
    rw [same, held] at fresh
    cases fresh

theorem Orderly.away_step (orderly : w.Orderly savers target initial)
    (step : (savers i).Step target (w.files, w.savers i) (files, phase))
    (mine : (w.savers i).own? = some temporary ∨ phase.own? = some temporary) :
    temporary.location ≠ target.location := by
  rcases mine with mine | mine
  · exact orderly.away mine
  rcases step.own mine with mine | ⟨-, away⟩
  · exact orderly.away mine
  · exact away

/-- Unless a saver publishes, the file at the path stays. -/
theorem Orderly.path_step (orderly : w.Orderly savers target initial)
    (step : (savers i).Step target (w.files, w.savers i) (files, phase))
    (hidden : phase ≠ .published) :
    files.file? target.location = w.files.file? target.location ∧
      ∀ {bytes}, w.files.read target = .ok bytes → files.read target = .ok bytes := by
  have same : files.file? target.location = w.files.file? target.location :=
    step.file?_other (fun _ mine => (orderly.away_step step mine).symm)
      fun published => absurd published hidden
  exact ⟨same, fun held =>
    FileTree.read_keeps step.keeps held (same.trans (FileTree.read_ok held))⟩

end

variable [DecidableEq ι] [DecidableEq κ]

omit [DecidableEq κ] in
theorem Orderly.save {i : ι} {files : FileTree} {phase : Phase}
    (orderly : w.Orderly savers target initial)
    (step : (savers i).Step target (w.files, w.savers i) (files, phase)) :
    Orderly savers target initial
      { w with files, savers := Function.update w.savers i phase } := by
  have mine : Function.update w.savers i phase i = phase := Function.update_self ..
  have others {j : ι} (differ : i ≠ j) : Function.update w.savers i phase j = w.savers j :=
    Function.update_of_ne (Ne.symm differ) ..
  have published {j : ι} (before : w.savers j = .published) :
      Function.update w.savers i phase j = .published := by
    have differ : i ≠ j := by
      rintro rfl
      exact step.ne_published before
    rw [others differ, before]
  constructor
  case away =>
    intro j temporary (own : (Function.update w.savers i phase j).own? = some temporary)
    by_cases same : i = j
    · subst same
      exact orderly.away_step step (.inr (mine ▸ own))
    · exact orderly.away (others same ▸ own)
  case apart =>
    intro j k temporary other differ
      (own : (Function.update w.savers i phase j).own? = some temporary)
      (own' : (Function.update w.savers i phase k).own? = some other)
    by_cases first : i = j
    · subst first
      exact orderly.apart_step step differ (.inr (mine ▸ own)) (others differ ▸ own')
    by_cases second : i = k
    · subst second
      exact (orderly.apart_step step first (.inr (mine ▸ own')) (others first ▸ own)).symm
    · exact orderly.apart differ (others first ▸ own) (others second ▸ own')
  case holds =>
    refine (Function.forall_update_iff w.savers fun j now => now.Holds (savers j) files).mpr
      ⟨step.holds (orderly.holds i), fun j differ => ?_⟩
    refine (orderly.holds j).keep fun temporary own => step.file?_other ?_ ?_
    · exact fun _ mine => (orderly.apart_step step differ.symm mine own).symm
    · exact fun _ => orderly.away own
  case path =>
    by_cases done : phase = .published
    · subst done
      exact .inr ⟨i, mine, step.published (orderly.holds i)⟩
    · obtain ⟨same, read⟩ := orderly.path_step step done
      rcases orderly.path with untouched | ⟨j, before, bytes, stores, held⟩
      · exact .inl ⟨same.trans untouched.file?, fun held => read (untouched.read held)⟩
      · exact .inr ⟨j, published before, bytes, stores, read held⟩
  case readers =>
    intro k bytes opened
    exact (orderly.readers opened).imp_right
      fun ⟨j, before, stores⟩ => ⟨j, published before, stores⟩

omit [DecidableEq ι] in
theorem Orderly.read {k : κ} {reading : Reading} (orderly : w.Orderly savers target initial)
    (step : Reading.Step w.files target (w.readers k) reading) :
    Orderly savers target initial { w with readers := Function.update w.readers k reading } := by
  refine ⟨orderly.away, orderly.apart, orderly.holds, orderly.path, ?_⟩
  intro j bytes (opened : (Function.update w.readers k reading j).bytes? = some bytes)
  by_cases same : j = k
  · subst same
    rw [Function.update_self] at opened
    generalize before : w.readers j = last at step
    cases step with
    | start found =>
      cases opened
      exact orderly.whole found
    | go | finish =>
      cases opened
      exact orderly.readers (by rw [before]; rfl)
  · rw [Function.update_of_ne same] at opened
    exact orderly.readers opened

theorem Run.orderly (run : Run savers target initial w) : w.Orderly savers target initial := by
  induction run with
  | start => exact .start
  | step _ step ih =>
    cases step with
    | save step => exact ih.save step
    | read step => exact ih.read step

end World

/-! ## Saving in one go -/

/-- A save that nobody interrupts is made of these steps, as long as its temporary name is that of
no entry and not that of the path itself. -/
theorem Saver.steps_of_save {s : Saver} {target temporary : Path} {files files' : FileTree}
    (saved : save files target s.matrix s.key = (files', .ok ()))
    (named : temporary = (directoryOf target).join (freshName files (directoryOf target)))
    (fresh : FileTree.entry? (files.makeDirectories (directoryOf target)).1 temporary.location =
      none)
    (away : temporary.location ≠ target.location) :
    Relation.ReflTransGen (s.Step target) (files, .begun) (files', .published) := by
  obtain ⟨bytes, stores, published⟩ := save_eq_ok.mp saved
  have steps := publish_steps published
  rw [← named] at steps
  unfold publishSteps at steps
  obtain ⟨nested, made, steps⟩ := runSteps_cons.mp steps
  obtain ⟨started, created, steps⟩ := runSteps_cons.mp steps
  obtain ⟨filled, appended, steps⟩ := runSteps_cons.mp steps
  obtain ⟨final, renamed, steps⟩ := runSteps_cons.mp steps
  cases steps
  obtain rfl : (files.makeDirectories (directoryOf target)).1 = nested := congrArg Prod.fst made
  have buffer : s.Step target (started, .writing temporary [] bytes)
      (started, .writing temporary bytes []) := by
    simpa using @Step.buffer s target started temporary [] bytes []
  have append : s.Step target (started, .writing temporary bytes [])
      (filled, .writing temporary [] []) := by
    simpa using @Step.append s target started filled temporary bytes [] [] appended
  exact .tail (.tail (.tail (.tail (.tail (.tail .refl (.place stores made))
    (.create named fresh away created)) buffer) append) .flush) (.rename renamed)

/-! ## What is seen at the path -/

/-- Some bytes give a saver's matrix to its key and are stale for every other one. -/
structure Saver.Gives (s : Saver) (bytes : Bytes) : Prop where
  own : read s.key bytes = .ok s.matrix
  other : ∀ key ≠ s.key, ∃ reason, read key bytes = .error (.stale reason)

theorem Saver.Stores.gives {s : Saver} {bytes : Bytes} (stores : s.Stores bytes) :
    s.Gives bytes where
  own := read_write stores s.valid s.storable
  other := fun _ differ => read_write_other stores s.valid s.storable differ.symm

/-- However the turns of savers and readers are taken, and whoever stops for good, the path holds
what it held at first or the whole file of one saver, from which its key loads its matrix and
nothing is loaded for another. A reader that comes to the end of a file has seen such a file, also
when others were moved onto the path meanwhile. -/
theorem savers_publish_whole {ι κ : Type} [DecidableEq ι] [DecidableEq κ] {savers : ι → Saver}
    {target : Path} {initial : FileTree} {w : World ι κ}
    (run : World.Run savers target initial w) :
    (World.Untouched initial w.files target ∨
      ∃ i, w.savers i = .published ∧
        (∃ bytes, (savers i).Stores bytes ∧ w.files.read target = .ok bytes) ∧
        load w.files target (savers i).key = .ok (savers i).matrix ∧
        ∀ key ≠ (savers i).key, ∃ reason, load w.files target key = .error (.stale reason)) ∧
    ∀ k bytes, w.readers k = .finished bytes →
      initial.file? target.location = some bytes ∨
        ∃ i, w.savers i = .published ∧ (savers i).Stores bytes ∧ (savers i).Gives bytes := by
  have orderly := run.orderly
  constructor
  · refine orderly.path.imp_right ?_
    rintro ⟨i, published, bytes, stores, held⟩
    have gives := stores.gives
    refine ⟨i, published, ⟨bytes, stores, held⟩, ?_, fun key differ => ?_⟩
    · rw [load_held held]
      exact gives.own
    · rw [load_held held]
      exact gives.other key differ
  · intro k bytes finished
    refine (orderly.readers (k := k) (by rw [finished]; rfl)).imp_right ?_
    rintro ⟨i, published, stores⟩
    exact ⟨i, published, stores, stores.gives⟩

/-- The sample matrix, for a key of its shape. -/
def Saver.sample : Saver :=
  ⟨.sample, .sample, AssignmentMatrix.sample_valid, Archive.sample_storable⟩

/-- A file in the directory from which paths are seen. -/
def sampleTarget : Path := ⟨[], ["tam.bin"]⟩

/-- A file of a name beside it. -/
def sampleFile (name : String) : Path := ⟨[], [".", name]⟩

/-- Two savers at work. The first one publishes while the second one is at its first bytes and stops
there, and a reader sees the file of the first. -/
theorem savers_publish_whole_sample :
    ∃ (w : World Bool Unit) (bytes : Bytes),
      World.Run (fun _ => .sample) sampleTarget .empty w ∧
      w.savers true = .published ∧
      w.savers false = .writing (sampleFile ".tmp2") [] (bytes.drop 1) ∧
      w.readers () = .finished bytes ∧
      load w.files sampleTarget .sample = .ok .sample ∧ read .sample bytes = .ok .sample := by
  obtain ⟨bytes, stores⟩ : ∃ bytes, Saver.sample.Stores bytes :=
    ⟨_, write_eq_ok.mpr ⟨⟨rfl, rfl⟩, rfl⟩⟩
  have placed : Saver.sample.Step sampleTarget (.empty, .begun) (.empty, .placed bytes) :=
    .place stores (by with_unfolding_all rfl)
  have created : Saver.sample.Step sampleTarget (.empty, .placed bytes)
      (⟨[(".tmp1", .file [])]⟩, .writing (sampleFile ".tmp1") [] bytes) :=
    .create (by with_unfolding_all rfl : _ = (directoryOf sampleTarget).join ".tmp1") (by decide)
      (by decide) (by with_unfolding_all rfl)
  have created' : Saver.sample.Step sampleTarget (⟨[(".tmp1", .file [])]⟩, .placed bytes)
      (⟨[(".tmp2", .file []), (".tmp1", .file [])]⟩, .writing (sampleFile ".tmp2") [] bytes) :=
    .create (by with_unfolding_all rfl : _ = (directoryOf sampleTarget).join ".tmp2") (by decide)
      (by decide) (by with_unfolding_all rfl)
  have appended : Saver.sample.Step sampleTarget
      (⟨[(".tmp2", .file []), (".tmp1", .file [])]⟩, .writing (sampleFile ".tmp1") (bytes ++ []) [])
      (⟨[(".tmp1", .file bytes), (".tmp2", .file [])]⟩, .writing (sampleFile ".tmp1") [] []) :=
    .append (by with_unfolding_all rfl)
  have appended' : Saver.sample.Step sampleTarget
      (⟨[(".tmp1", .file bytes), (".tmp2", .file [])]⟩,
        .writing (sampleFile ".tmp2") (bytes.take 1 ++ []) (bytes.drop 1))
      (⟨[(".tmp2", .file (bytes.take 1)), (".tmp1", .file bytes)]⟩,
        .writing (sampleFile ".tmp2") [] (bytes.drop 1)) :=
    .append (by with_unfolding_all rfl)
  have renamed : Saver.sample.Step sampleTarget
      (⟨[(".tmp2", .file (bytes.take 1)), (".tmp1", .file bytes)]⟩, .flushed (sampleFile ".tmp1"))
      (⟨[("tam.bin", .file bytes), (".tmp2", .file (bytes.take 1))]⟩, .published) :=
    .rename (by with_unfolding_all rfl)
  have handed {files : FileTree} {temporary : Path} {piece rest : Bytes}
      (whole : piece ++ rest = bytes) : Saver.sample.Step sampleTarget
        (files, .writing temporary [] bytes) (files, .writing temporary (piece ++ []) rest) := by
    rw [← whole, List.append_nil]
    exact .buffer
  have saved := (World.Run.start :
      World.Run (fun _ => .sample) sampleTarget .empty (_ : World Bool Unit))
    |>.step (.save (i := true) placed) |>.step (.save (i := false) placed)
    |>.step (.save (i := true) created) |>.step (.save (i := false) created')
    |>.step (.save (i := true) (handed (List.append_nil bytes)))
    |>.step (.save (i := true) appended)
    |>.step (.save (i := false) (handed (List.take_append_drop 1 bytes)))
    |>.step (.save (i := false) appended')
    |>.step (.save (i := true) .flush) |>.step (.save (i := true) renamed)
  have seen := saved
    |>.step (.read (k := ()) (.start (by with_unfolding_all rfl)))
    |>.step (.read (k := ()) (.go (List.prefix_refl bytes)))
    |>.step (.read (k := ()) .finish)
  obtain ⟨path, readers⟩ := savers_publish_whole seen
  have absent : FileTree.empty.file? sampleTarget.location = none := by decide
  refine ⟨_, bytes, seen, rfl, rfl, rfl, ?_, ?_⟩
  · rcases path with untouched | ⟨-, -, -, loaded, -⟩
    · have changed := untouched.file?
      rw [absent] at changed
      cases changed
    · exact loaded
  · rcases readers () bytes rfl with first | ⟨-, -, -, gives⟩
    · rw [absent] at first
      cases first
    · exact gives.own

end RoadFlow.Cache
