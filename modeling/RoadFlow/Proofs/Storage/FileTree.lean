import RoadFlow.Proofs.Except
import RoadFlow.Proofs.Storage.FileNode

/-!
# Operations on file trees

A path leads to its location (`Path.location`), and an operation that succeeds changes what stands
at the locations of its paths only.
-/

namespace RoadFlow.Storage

/-- Where a path leads if it leads anywhere. -/
def Path.location (p : Path) : Location := (p.place ++ p.names).foldl Path.step []

namespace FileTree

variable {t t' : FileTree} {p : Path} {l d : Location} {name : String} {bytes : Bytes}

theorem entry?_eq : t.entry? l = t.root.entryAt l := rfl

/-- The bytes of the file at a location. -/
def file? (t : FileTree) (l : Location) : Option Bytes :=
  match t.entry? l with
  | some (.file bytes) => some bytes
  | _ => none

theorem file?_eq_some : t.file? l = some bytes ↔ t.entry? l = some (.file bytes) := by
  rw [file?]
  cases t.entry? l with
  | none => simp
  | some e => cases e <;> simp

theorem root_put (new : FileNode) :
    (t.put (d ++ [name]) new).root = t.root.put (d ++ [name]) new := by
  cases d <;> rfl

theorem root_erase : (t.erase (d ++ [name])).root = t.root.erase (d ++ [name]) := by
  cases d with
  | nil => rfl
  | cons n d =>
    show (ofRoot ((FileNode.directory t.entries).erase (n :: (d ++ [name])))).root =
      (FileNode.directory t.entries).erase (n :: (d ++ [name]))
    rw [FileNode.erase, if_neg (by simp)]
    cases t.entries.lookup n <;> rfl

/-! ## Walking -/

/-- Each node of a trail is an entry of the one before it. -/
def Passed (t : FileTree) : Trail → Prop
  | [] => True
  | (name, node) :: trail =>
    Passed t trail ∧ ∃ entries, t.reached trail = .directory entries ∧
      entries.lookup name = some node

theorem location_cons {node : FileNode} {trail : Trail} :
    Trail.location ((name, node) :: trail) = Trail.location trail ++ [name] := by
  simp [Trail.location]

/-- A trail ends at the node of its location. -/
theorem Passed.find? {trail : Trail} (h : t.Passed trail) :
    t.root.find? (Trail.location trail) = some (t.reached trail) := by
  induction trail with
  | nil => rfl
  | cons step trail ih =>
    obtain ⟨name, node⟩ := step
    obtain ⟨before, entries, here, held⟩ := h
    rw [location_cons, FileNode.find?_append, ih before, here, Option.bind_some,
      FileNode.find?_cons, held]
    cases node <;> rfl

theorem Passed.enter {trail next : Trail} (h : t.Passed trail)
    (step : t.enter trail name = .ok next) :
    t.Passed next ∧ Trail.location next = Path.step (Trail.location trail) name := by
  unfold FileTree.enter at step
  cases here : t.reached trail with
  | file bytes => simp [here] at step
  | directory entries =>
    simp only [here] at step
    split at step
    · rename_i blank
      cases step
      exact ⟨h, by rw [Path.step, if_pos blank]⟩
    rename_i blank
    split at step
    · rename_i up
      cases step
      refine ⟨?_, ?_⟩
      · cases trail with
        | nil => exact h
        | cons last trail => exact h.1
      · rw [Path.step, if_neg blank, if_pos up]
        simp [Trail.location]
    rename_i up
    split at step
    · cases step
    · cases step
    · rename_i node found
      cases step
      have held : entries.lookup name = some node := by
        unfold lookUp at found
        split at found
        · cases found
        · exact Except.ok.inj found
      refine ⟨⟨h, entries, here, held⟩, ?_⟩
      rw [location_cons, Path.step, if_neg blank, if_neg up]

theorem walk_ok {place : Location} {names : List String} {trail : Trail}
    (h : t.walk place names = .ok trail) :
    t.Passed trail ∧ Trail.location trail = (place ++ names).foldl Path.step [] := by
  let Follows (seen : List String) (trail : Trail) : Prop :=
    t.Passed trail ∧ Trail.location trail = seen.foldl Path.step []
  have start : Follows [] [] := ⟨trivial, rfl⟩
  have whole : Follows ([] ++ (place ++ names)) trail := by
    refine foldlM_invariant Follows start ?_ h
    intro seen trail name next before step
    obtain ⟨passed, location⟩ := before.1.enter step
    refine ⟨passed, ?_⟩
    rw [location, before.2, List.foldl_append]
    rfl
  exact whole

theorem find_ok {e : Entry} (h : t.find p = .ok e) : t.entry? p.location = some e := by
  unfold find at h
  split at h
  · cases h
  · cases walked : t.walk p.place p.names with
    | error fault => simp [walked, Except.map] at h
    | ok trail =>
      obtain ⟨passed, location⟩ := walk_ok walked
      rw [walked] at h
      cases h
      rw [entry?_eq, FileNode.entryAt, Path.location, ← location, passed.find?]
      rfl

theorem read_ok (h : t.read p = .ok bytes) : t.file? p.location = some bytes := by
  unfold read at h
  split at h
  · rename_i found
    cases h
    exact file?_eq_some.mpr (find_ok found)
  · cases h
  · cases h

/-! ## Sites -/

theorem foldl_step_blank {here : Location} {names : List String} (blank : ∀ n ∈ names, n = "") :
    names.foldl Path.step here = here := by
  induction names with
  | nil => rfl
  | cons n names ih =>
    rw [List.foldl_cons, blank n (by simp)]
    exact ih fun m hm => blank m (List.mem_cons_of_mem n hm)

/-- The directory of a site, and the name at which a path enters it. -/
theorem site_ok {s : Site} (h : t.site p = .ok s) :
    t.root.find? s.directory = some (.directory s.entries) ∧
      ∀ name, s.name? = some name → p.location = s.target name := by
  unfold site at h
  split at h
  · cases h
  dsimp only at h
  split at h
  · cases h
  rename_i trail walked
  split at h
  · cases h
  rename_i entries here
  cases h
  obtain ⟨passed, location⟩ := walk_ok walked
  refine ⟨by rw [passed.find?, here], ?_⟩
  intro name last
  obtain ⟨head, plain⟩ := Option.filter_eq_some_iff.mp last
  -- only blank names follow the last one, so the path leads where it does without them
  have named := List.head?_dropWhile_not (fun n : String => decide (n = "")) p.names.reverse
  rw [head] at named
  have blanks : ∀ n ∈ (p.names.reverse.takeWhile (· = "")).reverse, n = "" := by
    intro n hn
    simpa using List.all_eq_true.mp List.all_takeWhile n (List.mem_reverse.mp hn)
  have parts : p.names = (p.names.reverse.dropWhile (· = "")).tail.reverse ++ [name] ++
      (p.names.reverse.takeWhile (· = "")).reverse := by
    have ends : p.names.reverse.dropWhile (· = "") =
        name :: (p.names.reverse.dropWhile (· = "")).tail :=
      List.eq_cons_of_mem_head? head
    rw [← List.reverse_cons, ← ends, ← List.reverse_append, List.takeWhile_append_dropWhile,
      List.reverse_reverse]
  have entered : Path.step (Trail.location trail) name = Trail.location trail ++ [name] := by
    simp only [decide_eq_false_iff_not] at named
    simp only [Path.isDots, Bool.not_eq_true', Bool.or_eq_false_iff, decide_eq_false_iff_not]
      at plain
    simp [Path.step, Path.isBlank, named, plain]
  rw [Path.location, parts, ← List.append_assoc, ← List.append_assoc, List.foldl_append,
    foldl_step_blank blanks, List.foldl_append, ← location, List.foldl_cons, List.foldl_nil,
    entered]
  rfl

theorem lookUp_ok {entries : List (String × FileNode)} {found : Option FileNode}
    (h : lookUp entries name = .ok found) : entries.lookup name = found := by
  unfold lookUp at h
  split at h
  · cases h
  · exact Except.ok.inj h

/-- What stands at the name of a site. -/
theorem entry?_target {s : Site} (held : t.root.find? s.directory = some (.directory s.entries)) :
    t.root.entryAt s.directory = some .directory ∧
      t.root.entryAt (s.directory ++ [name]) = (s.entries.lookup name).map (·.entry) := by
  refine ⟨FileNode.entryAt_eq_directory.mpr ⟨_, held⟩, ?_⟩
  rw [FileNode.entryAt_append, held, Option.bind_some, FileNode.entryAt_cons]
  cases s.entries.lookup name <;> simp

theorem map_entry_ne_directory {found : Option FileNode}
    (h : ∀ entries, found ≠ some (.directory entries)) :
    found.map (·.entry) ≠ some .directory := by
  intro taken
  obtain ⟨node, rfl, kind⟩ := Option.map_eq_some_iff.mp taken
  cases node with
  | file bytes => cases kind
  | directory entries => exact h entries rfl

/-! ## Changes -/

/-- What a write looks at, and what it makes of it. -/
theorem write_site (h : t.write p bytes = .ok t') :
    ∃ s name, t.site p = .ok s ∧ s.name? = some name ∧ s.slashed = false ∧
      (∃ old, lookUp s.entries name = .ok old ∧ ∀ entries, old ≠ some (.directory entries)) ∧
      t' = t.put (s.target name) (.file bytes) := by
  unfold write at h
  obtain ⟨s, found, h⟩ := bind_eq_ok.mp h
  split at h
  · cases h
  rename_i name last
  split at h
  · cases h
  rename_i plain
  obtain ⟨old, looked, h⟩ := bind_eq_ok.mp h
  split at h
  · cases h
  · rename_i other
    cases h
    exact ⟨s, name, found, last, Bool.not_eq_true _ ▸ plain,
      ⟨old, looked, fun entries same => other entries same⟩, rfl⟩

/-- A file written stands at its location, where no directory stood, and all else is as it was. -/
theorem write_ok (h : t.write p bytes = .ok t') :
    t.entry? p.location ≠ some .directory ∧
      ∀ l, t'.entry? l = if l = p.location then some (.file bytes) else t.entry? l := by
  obtain ⟨s, name, found, last, -, ⟨old, looked, other⟩, rfl⟩ := write_site h
  obtain ⟨held, location⟩ := site_ok found
  obtain ⟨inside, stands⟩ := @entry?_target t name s held
  have free : t.root.entryAt (s.directory ++ [name]) ≠ some .directory := by
    rw [stands, lookUp_ok looked]
    exact map_entry_ne_directory other
  rw [location name last]
  refine ⟨free, fun l => ?_⟩
  rw [entry?_eq, Site.target, root_put, FileNode.entryAt_put_file inside free, entry?_eq]

/-- A new directory stands where nothing stood, and all else is as it was. -/
theorem makeDirectory_ok (h : t.makeDirectory p = .ok t') :
    t.entry? p.location = none ∧
      ∀ l, t'.entry? l = if l = p.location then some .directory else t.entry? l := by
  unfold makeDirectory at h
  obtain ⟨s, found, h⟩ := bind_eq_ok.mp h
  obtain ⟨held, location⟩ := site_ok found
  split at h
  · cases h
  rename_i name last
  obtain ⟨old, looked, h⟩ := bind_eq_ok.mp h
  obtain ⟨inside, stands⟩ := @entry?_target t name s held
  rw [location name last]
  split at h
  · cases h
  · cases h
    have free : t.root.entryAt (s.directory ++ [name]) = none := by
      rw [stands, lookUp_ok looked]
      rfl
    refine ⟨free, fun l => ?_⟩
    rw [entry?_eq, Site.target, root_put, FileNode.entryAt_put_directory inside free, entry?_eq]

/-- A file taken from one directory and put into another. -/
theorem move_file {d' : Location} {name' : String} (inside : t.root.entryAt d = some .directory)
    (held : t.root.entryAt (d ++ [name]) = some (.file bytes))
    (inside' : t.root.entryAt d' = some .directory)
    (free : t.root.entryAt (d' ++ [name']) ≠ some .directory) (l : Location) :
    FileTree.entry? ((t.erase (d ++ [name])).put (d' ++ [name']) (.file bytes)) l =
      if l = d' ++ [name'] then some (.file bytes)
      else if l = d ++ [name] then none
      else t.entry? l := by
  have isFile : t.root.entryAt (d ++ [name]) ≠ some .directory := by
    rw [held]
    simp
  have gone (l : Location) : (t.erase (d ++ [name])).root.entryAt l =
      if l = d ++ [name] then none else t.root.entryAt l := by
    rw [root_erase, FileNode.entryAt_erase_file inside isFile]
  have stays : (t.erase (d ++ [name])).root.entryAt d' = some .directory := by
    have apart : d' ≠ d ++ [name] := by
      rintro rfl
      exact isFile inside'
    rw [gone, if_neg apart, inside']
  have open_ : (t.erase (d ++ [name])).root.entryAt (d' ++ [name']) ≠ some .directory := by
    rw [gone]
    split
    · simp
    · exact free
  rw [entry?_eq, root_put, FileNode.entryAt_put_file stays open_, gone, entry?_eq]

/-- What a rename looks at, and what it makes of it. -/
theorem rename_sites {source target : Path} (h : t.rename source target = .ok t') :
    ∃ here there old new bytes,
      t.site source = .ok here ∧ here.name? = some old ∧
      lookUp here.entries old = .ok (some (.file bytes)) ∧
      t.site target = .ok there ∧ there.name? = some new ∧ there.slashed = false ∧
      (∃ replaced, lookUp there.entries new = .ok replaced ∧
        ∀ entries, replaced ≠ some (.directory entries)) ∧
      t' = (t.erase (here.target old)).put (there.target new) (.file bytes) := by
  unfold rename at h
  split at h
  · cases h
  obtain ⟨here, foundHere, h⟩ := bind_eq_ok.mp h
  obtain ⟨there, foundThere, h⟩ := bind_eq_ok.mp h
  split at h
  · rename_i old new oldLast newLast
    obtain ⟨moved, lookedOld, h⟩ := bind_eq_ok.mp h
    obtain ⟨replaced, lookedNew, h⟩ := bind_eq_ok.mp h
    split at h
    · cases h
    · cases h
    dsimp only at h
    split at h
    · cases h
    rename_i plain
    split at h
    · cases h
    rename_i other
    cases h
    rw [Bool.or_eq_true, not_or, Bool.not_eq_true, Bool.not_eq_true] at plain
    exact ⟨here, there, old, new, _, foundHere, oldLast, lookedOld, foundThere, newLast, plain.2,
      ⟨replaced, lookedNew, fun entries same => other entries same⟩, rfl⟩
  · cases h

/-- A file moved stands at its new location only, and all else is as it was. -/
theorem rename_ok {source target : Path} (h : t.rename source target = .ok t') :
    ∃ bytes, t.entry? source.location = some (.file bytes) ∧
      t.entry? target.location ≠ some .directory ∧
      ∀ l, t'.entry? l =
        if l = target.location then some (.file bytes)
        else if l = source.location then none
        else t.entry? l := by
  obtain ⟨here, there, old, new, bytes, foundHere, oldLast, lookedOld, foundThere, newLast, -,
    ⟨replaced, lookedNew, other⟩, rfl⟩ := rename_sites h
  obtain ⟨heldHere, locationHere⟩ := site_ok foundHere
  obtain ⟨heldThere, locationThere⟩ := site_ok foundThere
  obtain ⟨insideOld, standsOld⟩ := @entry?_target t old here heldHere
  obtain ⟨insideNew, standsNew⟩ := @entry?_target t new there heldThere
  rw [locationHere old oldLast, locationThere new newLast]
  rw [lookUp_ok lookedOld] at standsOld
  have free : t.root.entryAt (there.directory ++ [new]) ≠ some .directory := by
    rw [standsNew, lookUp_ok lookedNew]
    exact map_entry_ne_directory other
  exact ⟨bytes, standsOld, free, move_file insideOld standsOld insideNew free⟩

/-! ## Files -/

theorem file?_write (h : t.write p bytes = .ok t') :
    t'.file? l = if l = p.location then some bytes else t.file? l := by
  rw [file?, (write_ok h).2]
  by_cases here : l = p.location
  · rw [if_pos here, if_pos here]
  · rw [if_neg here, if_neg here, file?]

theorem file?_rename {source target : Path} (h : t.rename source target = .ok t') :
    ∃ bytes, t.file? source.location = some bytes ∧
      ∀ l, t'.file? l =
        if l = target.location then some bytes
        else if l = source.location then none
        else t.file? l := by
  obtain ⟨bytes, found, -, moved⟩ := rename_ok h
  refine ⟨bytes, file?_eq_some.mpr found, fun l => ?_⟩
  rw [file?, moved]
  by_cases there : l = target.location
  · rw [if_pos there, if_pos there]
  by_cases here : l = source.location
  · rw [if_neg there, if_neg there, if_pos here, if_pos here]
  · rw [if_neg there, if_neg there, if_neg here, if_neg here, file?]

/-! Directories are made without a change to any file. -/

theorem file?_makeDirectory (h : t.makeDirectory p = .ok t') : t'.file? l = t.file? l := by
  obtain ⟨free, changed⟩ := makeDirectory_ok h
  rw [file?, file?, changed]
  by_cases here : l = p.location
  · rw [if_pos here, here, free]
  · rw [if_neg here]

theorem file?_ensureDirectory (h : t.ensureDirectory p = .ok t') : t'.file? l = t.file? l := by
  unfold ensureDirectory at h
  split at h
  · split at h
    · cases h
      rfl
    · cases h
  · exact file?_makeDirectory h

theorem file?_makeNested (paths : List Path) : (t.makeNested paths).1.file? l = t.file? l := by
  induction paths with
  | nil => rfl
  | cons p parents ih =>
    have settled {t : FileTree} : (t.settle (t.ensureDirectory p)).1.file? l = t.file? l := by
      cases ensured : t.ensureDirectory p with
      | ok t' => exact file?_ensureDirectory ensured
      | error fault => rfl
    unfold makeNested
    split
    · split
      · rename_i made
        rw [settled, ← ih, made]
      · exact ih
    · exact settled

theorem file?_makeDirectories : (t.makeDirectories p).1.file? l = t.file? l := by
  unfold makeDirectories
  split
  · rfl
  · exact file?_makeNested p.withParents

end FileTree

end RoadFlow.Storage
