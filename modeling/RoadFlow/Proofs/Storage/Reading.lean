import Mathlib.Data.List.Induction
import RoadFlow.Proofs.Storage.FileTree

/-!
# Reading after a change

A walk looks at directories and at the names in them, so it leads to the same directory in a tree
that keeps all directories (`walk_keeps`), and a path leads to the same file, if it is still there
(`read_keeps`). A file that was moved onto a path is read from there (`read_rename`).
-/

namespace RoadFlow.Storage.FileTree

variable {t t' : FileTree} {trail trail' : Trail} {p : Path} {l : Location} {name : String}
  {names : List String} {entries entries' : List (String × FileNode)} {bytes : Bytes}

/-- Every directory of one tree is one of the other. -/
def Keeps (t t' : FileTree) : Prop :=
  ∀ l, t.entry? l = some .directory → t'.entry? l = some .directory

/-- A trail ends at a directory. -/
def Inside (t : FileTree) (trail : Trail) : Prop := ∃ entries, t.reached trail = .directory entries

theorem Passed.inside_iff (passed : t.Passed trail) :
    t.Inside trail ↔ t.entry? trail.location = some .directory := by
  rw [entry?_eq, FileNode.entryAt_eq_directory, passed.find?]
  simp [Inside]

/-- Only from a directory a walk goes on. -/
theorem inside_of_enter (h : t.enter trail name = .ok trail') : t.Inside trail := by
  unfold enter at h
  split at h
  · cases h
  · rename_i entries here
    exact ⟨entries, here⟩

/-- What stands in a directory is stored under its name. -/
theorem Passed.entry?_name {e : Entry} (passed : t.Passed trail)
    (here : t.reached trail = .directory entries) :
    t.entry? (trail.location ++ [name]) = some e ↔
      ∃ node, entries.lookup name = some node ∧ node.entry = e := by
  rw [entry?_eq, FileNode.entryAt_append, passed.find?, here, Option.bind_some,
    FileNode.entryAt_cons, Option.bind_eq_some_iff]
  simp

/-- A plain name leads to what is stored under it. -/
theorem enter_name {node : FileNode} (plain : Path.isBlank name = false) (down : name ≠ "..")
    (here : t.reached trail = .directory entries)
    (found : lookUp entries name = .ok (some node)) :
    t.enter trail name = .ok ((name, node) :: trail) := by
  simp only [enter, here, plain, Bool.false_eq_true, if_false, down, found]

/-- A step that leads to a directory leads there in any tree that keeps directories. -/
theorem enter_keeps (keeps : t.Keeps t') (passed : t.Passed trail) (passed' : t'.Passed trail')
    (same : trail'.location = trail.location) {next : Trail}
    (entered : t.enter trail name = .ok next) (inside : t.Inside next) :
    ∃ next', t'.enter trail' name = .ok next' ∧ t'.Passed next' ∧ t'.Inside next' ∧
      next'.location = next.location := by
  obtain ⟨passedNext, location⟩ := passed.enter entered
  have here := passed.inside_iff.mp (inside_of_enter entered)
  have there := keeps _ (passedNext.inside_iff.mp inside)
  rw [← same] at here location
  obtain ⟨entries', here'⟩ := passed'.inside_iff.mpr (keeps _ here)
  suffices ∃ next', t'.enter trail' name = .ok next' by
    obtain ⟨next', entered'⟩ := this
    obtain ⟨passedNext', location'⟩ := passed'.enter entered'
    rw [← location] at location'
    exact ⟨next', entered', passedNext', passedNext'.inside_iff.mpr (location' ▸ there), location'⟩
  by_cases blank : Path.isBlank name = true
  · exact ⟨trail', by simp only [enter, here', blank, if_true]⟩
  rw [Bool.not_eq_true] at blank
  by_cases up : name = ".."
  · subst up
    exact ⟨trail'.tail, by simp only [enter, here', blank, if_true, Bool.false_eq_true, if_false]⟩
  -- the entry is under its name again, as the place it leads to is still a directory
  have short : ¬ nameLimit < name.utf8ByteSize := by
    intro long
    obtain ⟨entries, here⟩ := inside_of_enter entered
    simp [enter, here, blank, up, lookUp, long] at entered
  rw [location, Path.step, blank, if_neg Bool.false_ne_true, if_neg up,
    passed'.entry?_name here'] at there
  obtain ⟨node, held, -⟩ := there
  exact ⟨_, enter_name blank up here' (by rw [lookUp, if_neg short, held])⟩

theorem walk_concat {place : Location} :
    t.walk place (names ++ [name]) = t.walk place names >>= fun trail => t.enter trail name := by
  unfold walk
  rw [← List.append_assoc, List.foldlM_append]
  exact congrArg _ (funext fun trail => by simp)

/-- A walk to a directory leads there in any tree that keeps directories. -/
theorem walk_keeps {place : Location} (keeps : t.Keeps t') (walked : t.walk place names = .ok trail)
    (inside : t.Inside trail) :
    ∃ trail', t'.walk place names = .ok trail' ∧ t'.Passed trail' ∧ t'.Inside trail' ∧
      trail'.location = trail.location := by
  unfold walk at walked ⊢
  generalize place ++ names = all at walked ⊢
  induction all using List.reverseRecOn generalizing trail with
  | nil =>
    cases walked
    exact ⟨[], rfl, trivial, ⟨_, rfl⟩, rfl⟩
  | append_singleton all name ih =>
    rw [List.foldlM_append, bind_eq_ok] at walked
    obtain ⟨mid, before, entered⟩ := walked
    rw [List.foldlM_cons, bind_eq_ok] at entered
    obtain ⟨next, entered, last⟩ := entered
    cases last
    have passed : t.Passed mid := (@walk_ok _ [] all mid before).1
    obtain ⟨mid', before', passed', -, same⟩ := ih (inside_of_enter entered) before
    obtain ⟨next', entered', there⟩ := enter_keeps keeps passed passed' same entered inside
    refine ⟨next', ?_, there⟩
    rw [List.foldlM_append, bind_eq_ok]
    exact ⟨mid', before', by rw [List.foldlM_cons, entered']; rfl⟩

/-! ## Paths that end in a directory -/

/-- A path leads to a directory and ends at a name in it. -/
structure EndsIn (t : FileTree) (p : Path) (name : String) (entries : List (String × FileNode)) :
    Prop where
  fine : pathFault? p = none
  plain : Path.isBlank name = false
  down : name ≠ ".."
  walked : ∃ front trail, p.names = front ++ [name] ∧ t.walk p.place front = .ok trail ∧
    t.reached trail = .directory entries

/-- The way to the last name of a path. -/
theorem site_endsIn {s : Site} (h : t.site p = .ok s) (last : s.name? = some name)
    (plain : s.slashed = false) : t.EndsIn p name s.entries := by
  unfold site at h
  split at h
  · cases h
  rename_i fine
  dsimp only at h
  split at h
  · cases h
  rename_i trail walked
  split at h
  · cases h
  rename_i entries here
  cases h
  obtain ⟨head, named⟩ := Option.filter_eq_some_iff.mp last
  have ends : p.names.getLast? ≠ some "" := by simpa using plain
  -- no slash ends the path, so that nothing stands behind its last name
  have whole : p.names.reverse.dropWhile (fun n => decide (n = "")) = p.names.reverse := by
    cases reversed : p.names.reverse with
    | nil => rfl
    | cons n rest =>
      rw [List.getLast?_eq_head?_reverse, reversed] at ends
      rw [List.dropWhile_cons_of_neg]
      simpa using ends
  rw [whole] at head walked
  have parts : p.names = p.names.reverse.tail.reverse ++ [name] := by
    rw [← List.reverse_cons, ← List.eq_cons_of_mem_head? head, List.reverse_reverse]
  have filled : name ≠ "" := by
    rintro rfl
    rw [parts, List.getLast?_append] at ends
    simp at ends
  simp only [Path.isDots, Bool.not_eq_true', Bool.or_eq_false_iff, decide_eq_false_iff_not] at named
  refine ⟨fine, ?_, named.2, _, trail, parts, walked, here⟩
  simp [Path.isBlank, filled, named.1]

namespace EndsIn

theorem entry?_location (ends : t.EndsIn p name entries) :
    t.entry? p.location = (entries.lookup name).map (·.entry) := by
  obtain ⟨-, plain, down, front, trail, parts, walked, here⟩ := ends
  obtain ⟨passed, location⟩ := walk_ok walked
  have place : p.location = trail.location ++ [name] := by
    rw [Path.location, parts, ← List.append_assoc, List.foldl_append, ← location, List.foldl_cons,
      List.foldl_nil, Path.step, if_neg (by simp [plain]), if_neg down]
  refine Option.ext fun e => ?_
  rw [place, passed.entry?_name here, Option.map_eq_some_iff]

/-- A path that ends in a directory ends there in any tree that keeps directories. -/
theorem keeps (ends : t.EndsIn p name entries) (keeps : t.Keeps t') :
    ∃ entries', t'.EndsIn p name entries' := by
  obtain ⟨fine, plain, down, front, trail, parts, walked, here⟩ := ends
  obtain ⟨trail', walked', -, ⟨entries', here'⟩, -⟩ := walk_keeps keeps walked ⟨_, here⟩
  exact ⟨entries', fine, plain, down, front, trail', parts, walked', here'⟩

theorem read (ends : t.EndsIn p name entries)
    (found : lookUp entries name = .ok (some (.file bytes))) : t.read p = .ok bytes := by
  obtain ⟨fine, plain, down, front, trail, parts, walked, here⟩ := ends
  have whole : t.walk p.place p.names = .ok ((name, .file bytes) :: trail) := by
    rw [parts, walk_concat, walked]
    exact enter_name plain down here found
  simp only [FileTree.read, find, fine, whole, Except.map, reached, FileNode.entry]

end EndsIn

/-- Only a plain name leads to a file. -/
theorem enter_file {trail next : Trail} (passed : t.Passed trail)
    (entered : t.enter trail name = .ok next) (file : t.reached next = .file bytes) :
    Path.isBlank name = false ∧ name ≠ ".." ∧ ∃ entries, t.reached trail = .directory entries ∧
      lookUp entries name = .ok (some (.file bytes)) := by
  unfold enter at entered
  split at entered
  · cases entered
  rename_i entries here
  split at entered
  · cases entered
    rw [here] at file
    cases file
  rename_i plain
  split at entered
  · cases entered
    cases trail with
    | nil => cases file
    | cons last trail =>
      obtain ⟨-, entries, around, -⟩ := passed
      rw [List.tail_cons, around] at file
      cases file
  rename_i down
  split at entered
  · cases entered
  · cases entered
  · rename_i node found
    cases entered
    have same : node = .file bytes := file
    exact ⟨Bool.not_eq_true _ ▸ plain, down, entries, here, same ▸ found⟩

theorem endsIn_of_read (h : t.read p = .ok bytes) :
    ∃ name entries, t.EndsIn p name entries ∧ lookUp entries name = .ok (some (.file bytes)) := by
  unfold FileTree.read find at h
  cases fine : pathFault? p with
  | some fault => simp [fine] at h
  | none =>
    cases whole : t.walk p.place p.names with
    | error fault => simp [fine, whole, Except.map] at h
    | ok trail =>
      have file : t.reached trail = .file bytes := by
        cases here : t.reached trail with
        | file held => simpa [fine, whole, Except.map, here, FileNode.entry] using h
        | directory entries => simp [fine, whole, Except.map, here, FileNode.entry] at h
      have named : p.names ≠ [] := by
        intro none
        rw [pathFault?, Path.text, none] at fine
        cases fine
      have parts := (List.dropLast_append_getLast named).symm
      rw [parts, walk_concat, bind_eq_ok] at whole
      obtain ⟨front, walked, entered⟩ := whole
      obtain ⟨plain, down, entries, here, found⟩ := enter_file (walk_ok walked).1 entered file
      exact ⟨_, entries, ⟨fine, plain, down, _, front, parts, walked, here⟩, found⟩

/-- A file under a name that is not too long is read. -/
theorem EndsIn.read_file {found : Option FileNode} (ends : t.EndsIn p name entries)
    (looked : lookUp entries' name = .ok found) (stands : t.file? p.location = some bytes) :
    t.read p = .ok bytes := by
  have stored := file?_eq_some.mp stands
  rw [ends.entry?_location, Option.map_eq_some_iff] at stored
  obtain ⟨node, stored, file⟩ := stored
  have same : node = .file bytes := by
    cases node <;> cases file
    rfl
  refine ends.read ?_
  unfold lookUp at looked ⊢
  split at looked
  · cases looked
  · rename_i short
    rw [if_neg short, stored, same]

/-- A path that leads to a file in one tree leads there in any tree that keeps the directories and
has a file there. -/
theorem read_keeps {later : Bytes} (keeps : t.Keeps t') (held : t.read p = .ok bytes)
    (stands : t'.file? p.location = some later) : t'.read p = .ok later := by
  obtain ⟨name, entries, ends, found⟩ := endsIn_of_read held
  obtain ⟨entries', ends'⟩ := ends.keeps keeps
  exact ends'.read_file found stands

/-! ## Moving -/

/-- To move a file moves no directory. -/
theorem keeps_rename {source target : Path} (h : t.rename source target = .ok t') :
    t.Keeps t' := by
  obtain ⟨moved, held, free, changed⟩ := rename_ok h
  intro l directory
  have away : l ≠ target.location := by
    rintro rfl
    exact free directory
  have stays : l ≠ source.location := by
    rintro rfl
    rw [held] at directory
    cases directory
  rw [changed, if_neg away, if_neg stays, directory]

/-- A file that was moved is read at its new path. -/
theorem read_rename {source target : Path} (h : t.rename source target = .ok t') :
    ∃ bytes, t.file? source.location = some bytes ∧ t'.read target = .ok bytes := by
  obtain ⟨-, there, -, new, -, -, -, -, found, last, plain, ⟨_, looked, -⟩, -⟩ := rename_sites h
  obtain ⟨moved, held, changed⟩ := file?_rename h
  obtain ⟨entries', ends⟩ := (site_endsIn found last plain).keeps (keeps_rename h)
  exact ⟨moved, held, ends.read_file looked (by rw [changed, if_pos rfl])⟩

end RoadFlow.Storage.FileTree
