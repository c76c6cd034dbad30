import RoadFlow.Storage.FileTree

/-!
# Entries of file nodes

What stands at each location below a node, and what is left there when a node is put into a
directory (`entryAt_put`) or taken out of one (`entryAt_erase`).
-/

namespace RoadFlow.Storage

section Lookup

variable {α : Type} {entries : List (String × α)} {m n : String}

theorem lookup_cons_eq (x : α) :
    ((n, x) :: entries).lookup m = if m = n then some x else entries.lookup m := by
  by_cases same : m = n
  · simp [same]
  · have differs : (m == n) = false := beq_eq_false_iff_ne.mpr same
    simp [List.lookup_cons, differs, same]

theorem lookup_filter_ne :
    (entries.filter fun e => e.1 ≠ n).lookup m = if m = n then none else entries.lookup m := by
  induction entries with
  | nil => simp
  | cons e entries ih =>
    obtain ⟨k, x⟩ := e
    by_cases dropped : k = n
    · rw [List.filter_cons_of_neg (by simpa using dropped), ih, lookup_cons_eq, dropped]
      by_cases same : m = n <;> simp [same]
    · rw [List.filter_cons_of_pos (by simpa using dropped), lookup_cons_eq, lookup_cons_eq, ih]
      by_cases same : m = k
      · simp [same, dropped]
      · simp [same]

end Lookup

namespace FileNode

variable {node new child : FileNode} {entries : List (String × FileNode)} {name : String}
  {d l : Location}

/-- What stands at a location below a node. -/
def entryAt (node : FileNode) (l : Location) : Option Entry := (node.find? l).map (·.entry)

theorem find?_cons :
    (directory entries).find? (name :: l) = (entries.lookup name).bind (·.find? l) := by
  rw [find?]
  cases entries.lookup name <;> rfl

theorem find?_append (a b : Location) : node.find? (a ++ b) = (node.find? a).bind (·.find? b) := by
  induction a generalizing node with
  | nil => cases node <;> rfl
  | cons name a ih =>
    cases node with
    | file bytes => rfl
    | directory entries =>
      rw [List.cons_append, find?_cons, find?_cons]
      cases entries.lookup name with
      | none => rfl
      | some child => exact ih

@[simp] theorem entryAt_nil : node.entryAt [] = some node.entry := by
  cases node <;> rfl

@[simp] theorem entryAt_file_cons {bytes : Bytes} : (file bytes).entryAt (name :: l) = none := rfl

theorem entryAt_cons :
    (directory entries).entryAt (name :: l) = (entries.lookup name).bind (·.entryAt l) := by
  rw [entryAt, find?_cons, Option.map_bind]
  rfl

theorem entryAt_append (a b : Location) :
    node.entryAt (a ++ b) = (node.find? a).bind (·.entryAt b) := by
  rw [entryAt, find?_append, Option.map_bind]
  rfl

theorem entryAt_eq_directory :
    node.entryAt l = some .directory ↔ ∃ entries, node.find? l = some (directory entries) := by
  rw [entryAt, Option.map_eq_some_iff]
  constructor
  · rintro ⟨found, place, kind⟩
    cases found with
    | file bytes => cases kind
    | directory entries => exact ⟨entries, place⟩
  · rintro ⟨entries, place⟩
    exact ⟨_, place, rfl⟩

/-- Only directories hold anything. -/
theorem entryAt_below (h : node.entryAt l ≠ some .directory) (name : String) (rest : Location) :
    node.entryAt (l ++ name :: rest) = none := by
  rw [entryAt_append]
  cases place : node.find? l with
  | none => rfl
  | some found =>
    cases found with
    | file bytes => rfl
    | directory entries => exact absurd (entryAt_eq_directory.mpr ⟨entries, place⟩) h

/-- A way into a directory, name by name. -/
theorem entryAt_cons_directory (h : node.entryAt (name :: l) = some .directory) :
    ∃ entries child, node = directory entries ∧ entries.lookup name = some child ∧
      child.entryAt l = some .directory := by
  cases node with
  | file bytes => cases h
  | directory entries =>
    rw [entryAt_cons, Option.bind_eq_some_iff] at h
    obtain ⟨child, held, place⟩ := h
    exact ⟨entries, child, rfl, held, place⟩

theorem entryAt_nil_directory (h : node.entryAt [] = some .directory) :
    ∃ entries, node = directory entries := by
  cases node with
  | file bytes => cases h
  | directory entries => exact ⟨entries, rfl⟩

/-! ## Putting -/

theorem put_cons : (directory entries).put (name :: l) new =
    directory ((name, ((entries.lookup name).getD (directory [])).put l new) ::
      entries.filter fun e => e.1 ≠ name) := by
  rw [put]

theorem put_nil : node.put [] new = new := by
  cases node <;> rfl

/-- A node put into a directory stands there, and all else is as it was. -/
theorem entryAt_put (h : node.entryAt d = some .directory) :
    (node.put (d ++ [name]) new).entryAt l =
      if d ++ [name] <+: l then new.entryAt (l.drop (d ++ [name]).length) else node.entryAt l := by
  induction d generalizing node l with
  | nil =>
    obtain ⟨entries, rfl⟩ := entryAt_nil_directory h
    rw [List.nil_append, put_cons, put_nil]
    cases l with
    | nil => simp [entry]
    | cons m l =>
      rw [entryAt_cons, entryAt_cons, lookup_cons_eq, lookup_filter_ne]
      by_cases same : m = name
      · simp [same]
      · simp [same, Ne.symm same]
  | cons n d ih =>
    obtain ⟨entries, child, rfl, held, place⟩ := entryAt_cons_directory h
    rw [List.cons_append, put_cons, held, Option.getD_some]
    cases l with
    | nil => simp [entry]
    | cons m l =>
      rw [entryAt_cons, entryAt_cons, lookup_cons_eq, lookup_filter_ne]
      by_cases same : m = n
      · simp [same, held, ih place]
      · simp [same, Ne.symm same]

/-! ## Taking out -/

/-- What is taken out of a directory is gone, and all else is as it was. -/
theorem entryAt_erase (h : node.entryAt d = some .directory) :
    (node.erase (d ++ [name])).entryAt l =
      if d ++ [name] <+: l then none else node.entryAt l := by
  induction d generalizing node l with
  | nil =>
    obtain ⟨entries, rfl⟩ := entryAt_nil_directory h
    rw [List.nil_append, erase, if_pos rfl]
    cases l with
    | nil => simp [entry]
    | cons m l =>
      rw [entryAt_cons, entryAt_cons, lookup_filter_ne]
      by_cases same : m = name
      · simp [same]
      · simp [same, Ne.symm same]
  | cons n d ih =>
    obtain ⟨entries, child, rfl, held, place⟩ := entryAt_cons_directory h
    rw [List.cons_append, erase, if_neg (by simp), held]
    cases l with
    | nil => simp [entry]
    | cons m l =>
      rw [entryAt_cons, entryAt_cons, lookup_cons_eq, lookup_filter_ne]
      by_cases same : m = n
      · simp [same, held, ih place]
      · simp [same, Ne.symm same]

/-! ## Files and empty directories

What has nothing below it changes one location only, when no directory stands there. -/

theorem entryAt_under {target : Location} {below : Location → Option Entry}
    (free : node.entryAt target ≠ some .directory)
    (empty : ∀ name rest, below (name :: rest) = none) :
    (if target <+: l then below (l.drop target.length) else node.entryAt l) =
      if l = target then below [] else node.entryAt l := by
  by_cases under : target <+: l
  · obtain ⟨rest, rfl⟩ := under
    rw [if_pos (List.prefix_append _ _), List.drop_left]
    cases rest with
    | nil => simp
    | cons name rest =>
      rw [empty, entryAt_below free]
      simp
  · have other : l ≠ target := by
      rintro rfl
      exact under List.prefix_rfl
    rw [if_neg under, if_neg other]

theorem entryAt_put_file {bytes : Bytes} (h : node.entryAt d = some .directory)
    (free : node.entryAt (d ++ [name]) ≠ some .directory) :
    (node.put (d ++ [name]) (file bytes)).entryAt l =
      if l = d ++ [name] then some (.file bytes) else node.entryAt l := by
  rw [entryAt_put h, entryAt_under free fun _ _ => rfl]
  rfl

theorem entryAt_put_directory (h : node.entryAt d = some .directory)
    (free : node.entryAt (d ++ [name]) = none) :
    (node.put (d ++ [name]) (directory [])).entryAt l =
      if l = d ++ [name] then some .directory else node.entryAt l := by
  rw [entryAt_put h, entryAt_under (by simp [free]) fun _ _ => rfl]
  rfl

theorem entryAt_erase_file (h : node.entryAt d = some .directory)
    (free : node.entryAt (d ++ [name]) ≠ some .directory) :
    (node.erase (d ++ [name])).entryAt l = if l = d ++ [name] then none else node.entryAt l := by
  rw [entryAt_erase h]
  exact @entryAt_under node l _ (fun _ => none) free fun _ _ => rfl

end FileNode

end RoadFlow.Storage
