import RoadFlow.Proofs.Storage.Reading

/-!
# What changes leave alone

No operation takes a directory away, so that what a change does not touch is read as before
(`read_beside`). A file that can be read can be written over (`write_of_read`), and what was written
is read (`read_written`).
-/

namespace RoadFlow.Storage.FileTree

variable {t t' t'' : FileTree} {p : Path} {l : Location} {name : String} {bytes : Bytes}
  {entries : List (String × FileNode)}

/-! ## Directories -/

theorem Keeps.refl (t : FileTree) : t.Keeps t := fun _ directory => directory

theorem Keeps.trans (first : t.Keeps t') (second : t'.Keeps t'') : t.Keeps t'' :=
  fun l directory => second l (first l directory)

theorem keeps_write (h : t.write p bytes = .ok t') : t.Keeps t' := by
  obtain ⟨free, changed⟩ := write_ok h
  intro l directory
  have away : l ≠ p.location := by
    rintro rfl
    exact free directory
  rw [changed, if_neg away, directory]

theorem keeps_makeDirectory (h : t.makeDirectory p = .ok t') : t.Keeps t' := by
  obtain ⟨-, changed⟩ := makeDirectory_ok h
  intro l directory
  rw [changed]
  split
  · rfl
  · exact directory

theorem keeps_ensureDirectory (h : t.ensureDirectory p = .ok t') : t.Keeps t' := by
  unfold ensureDirectory at h
  split at h
  · split at h
    · cases h
      exact .refl t
    · cases h
  · exact keeps_makeDirectory h

theorem keeps_makeNested (paths : List Path) : t.Keeps (t.makeNested paths).1 := by
  induction paths with
  | nil => exact .refl t
  | cons p parents ih =>
    have settled (t : FileTree) : t.Keeps (t.settle (t.ensureDirectory p)).1 := by
      cases ensured : t.ensureDirectory p with
      | ok t' => exact keeps_ensureDirectory ensured
      | error fault => exact .refl t
    unfold makeNested
    split
    · split
      · rename_i made
        rw [made] at ih
        exact ih.trans (settled _)
      · exact ih
    · exact settled t

theorem keeps_makeDirectories : t.Keeps (t.makeDirectories p).1 := by
  unfold makeDirectories
  split
  · exact .refl t
  · exact keeps_makeNested p.withParents

/-! ## Removing -/

/-- A removal takes away the file of its path, if there is one, and nothing else. -/
theorem remove_cases (t : FileTree) (p : Path) :
    t.remove p = t ∨ ∃ bytes, t.file? p.location = some bytes ∧
      ∀ l, FileTree.entry? (t.remove p) l = if l = p.location then none else t.entry? l := by
  unfold remove
  split
  · rename_i d entries name found
    split
    · rename_i bytes stored
      obtain ⟨held, location⟩ := site_ok found
      obtain ⟨inside, stands⟩ := @entry?_target t name ⟨d, entries, some name, false⟩ held
      have here : p.location = d ++ [name] := location name rfl
      have file : t.root.entryAt (d ++ [name]) = some (.file bytes) := by
        rw [stands]
        simp [stored, FileNode.entry]
      refine .inr ⟨bytes, file?_eq_some.mpr (here ▸ file), fun l => ?_⟩
      rw [entry?_eq, root_erase, FileNode.entryAt_erase_file inside (by simp [file]), here,
        entry?_eq]
    · exact .inl rfl
  · exact .inl rfl

theorem keeps_remove : t.Keeps (t.remove p) := by
  rcases remove_cases t p with same | ⟨bytes, held, changed⟩
  · rw [same]
    exact .refl t
  · intro l directory
    have away : l ≠ p.location := by
      rintro rfl
      rw [file?_eq_some.mp held] at directory
      cases directory
    rw [changed, if_neg away, directory]

theorem file?_remove (away : l ≠ p.location) : (t.remove p).file? l = t.file? l := by
  rcases remove_cases t p with same | ⟨-, -, changed⟩
  · rw [same]
  · rw [file?, changed, if_neg away, file?]

/-! ## Writing -/

theorem EndsIn.site (ends : t.EndsIn p name entries) :
    ∃ s, t.site p = .ok s ∧ s.name? = some name ∧ s.slashed = false ∧ s.entries = entries := by
  obtain ⟨fine, plain, down, front, trail, parts, walked, here⟩ := ends
  have filled : name ≠ "" := by
    rintro rfl
    cases plain
  have undotted : Path.isDots name = false := by
    simp only [Path.isBlank, Bool.or_eq_false_iff, decide_eq_false_iff_not] at plain
    simp [Path.isDots, plain.2, down]
  have reversed : p.names.reverse.dropWhile (fun n => decide (n = "")) = name :: front.reverse := by
    rw [parts, List.reverse_append, List.reverse_singleton, List.singleton_append,
      List.dropWhile_cons_of_neg (by simpa using filled)]
  unfold FileTree.site
  simp only [fine, reversed, List.tail_cons, List.reverse_reverse, walked, here]
  refine ⟨_, rfl, ?_, ?_, rfl⟩
  · simp [undotted]
  · simp [parts, filled]

/-- A file that was written is read from its path. -/
theorem read_written (h : t.write p bytes = .ok t') : t'.read p = .ok bytes := by
  obtain ⟨s, name, found, last, plain, ⟨old, looked, -⟩, -⟩ := write_site h
  obtain ⟨entries', ends⟩ := (site_endsIn found last plain).keeps (keeps_write h)
  exact ends.read_file looked (by rw [file?_write h, if_pos rfl])

/-- A write leaves what is read elsewhere. -/
theorem read_beside {q : Path} {held : Bytes} (h : t.write p bytes = .ok t')
    (away : q.location ≠ p.location) (read : t.read q = .ok held) : t'.read q = .ok held :=
  read_keeps (keeps_write h) read (by rw [file?_write h, if_neg away, read_ok read])

/-- A file that can be read can be written over. -/
theorem write_of_read (held : t.read p = .ok bytes) (new : Bytes) :
    ∃ t', t.write p new = .ok t' := by
  obtain ⟨name, entries, ends, found⟩ := endsIn_of_read held
  obtain ⟨s, site, last, plain, rfl⟩ := ends.site
  refine ⟨t.put (s.target name) (.file new), ?_⟩
  unfold write
  simp only [site, last, plain, found, bind, Except.bind, Bool.false_eq_true, if_false]

end RoadFlow.Storage.FileTree
