import Mathlib.Algebra.Order.BigOperators.Group.List
import Mathlib.Data.List.Pairwise
import RoadFlow.Proofs.Cache.Saving

/-!
# Loading from any bytes

Loading goes by numbers that a file gives. With a check on every index and slice it finds none out
of range (`loadChecked_eq`), and what it accepts is laid out as a matrix has to be, with the edges
that the file has for each column (`load_safe`).
-/

namespace RoadFlow.Cache

open Storage (FileTree Path)

namespace Archive

/-! ## Checked indices -/

/-- The entries from one place up to another, if both are places among them in this order. -/
def cut? (rows : List Nat) (first last : Nat) : Option (List EdgeId) :=
  if first ≤ last ∧ last ≤ rows.length then some (((rows.take last).drop first).map (⟨·⟩)) else none

/-- The entries between the start of a column and that of the next, if nothing is out of range. -/
def column? (starts rows : List Nat) (c : Nat) : Option (List EdgeId) := do
  let first ← starts[c]?
  let last ← starts[c + 1]?
  cut? rows first last

/-- `toMatrix` by indices and slices, each of which is checked to be in range. -/
def toMatrixChecked (a : Archive) (key : Key) : Option (Except MatrixFault AssignmentMatrix) :=
  let width := key.clusterCount * key.clusterCount
  if a.colStart.length ≠ width + 1 then
    some (.error (.shape ⟨"column pointer", width + 1, a.colStart.length⟩))
  else do
    let last ← a.colStart[width]?
    if a.colStart.head? ≠ some 0 ∨ last ≠ a.rows.length ∨ !ascending a.colStart then
      some (.error (.stale .columnPointer))
    else
      let columns ← (List.range width).mapM (column? a.colStart a.rows)
      some (AssignmentMatrix.ofColumns key.edgeCount key.clusterCount columns)

variable {a : Archive} {key : Key} {m : AssignmentMatrix} {rows starts : List Nat}
  {start width : Nat}

theorem ascending_iff : ascending starts = true ↔ starts.Pairwise (· ≤ ·) := by
  induction starts with
  | nil => simp [ascending]
  | cons first rest ih =>
    cases rest with
    | nil => simp [ascending]
    | cons second rest =>
      rw [ascending, Bool.and_eq_true, decide_eq_true_eq, ih]
      constructor
      · rintro ⟨below, later⟩
        refine List.pairwise_cons.mpr ⟨fun n hn => ?_, later⟩
        rcases List.mem_cons.mp hn with rfl | hn
        · exact below
        · exact below.trans (List.rel_of_pairwise_cons later hn)
      · intro all
        exact ⟨List.rel_of_pairwise_cons all List.mem_cons_self, all.tail⟩

theorem column?_succ (c : Nat) :
    column? (start :: starts) rows (c + 1) = column? starts rows c := rfl

/-- Behind any start, checked slices are those that are cut off one after the other. -/
theorem mapM_column? (rising : (start :: starts).Pairwise (· ≤ ·))
    (inside : ∀ s ∈ start :: starts, s ≤ rows.length) :
    (List.range starts.length).mapM (column? (start :: starts) rows) =
      some (slices (rows.drop start) (start :: starts)) := by
  induction starts generalizing start with
  | nil => rfl
  | cons next starts ih =>
    have below : start ≤ next := List.rel_of_pairwise_cons rising List.mem_cons_self
    have first : column? (start :: next :: starts) rows 0 =
        some (((rows.drop start).take (next - start)).map (⟨·⟩)) := by
      show cut? rows start next = _
      rw [cut?, if_pos ⟨below, inside next (by simp)⟩, List.drop_take]
    have rest := ih rising.tail fun s hs => inside s (List.mem_cons_of_mem _ hs)
    have drop : (rows.drop start).drop (next - start) = rows.drop next := by
      rw [List.drop_drop]
      congr 1
      omega
    rw [List.length_cons, List.range_succ_eq_map, List.mapM_cons, first, slices, drop,
      List.mapM_map]
    simp only [Function.comp_def, column?_succ, rest]
    rfl

/-! ## Layouts -/

/-- Starts cut entries into columns: they begin at nothing, never go down, and end at all of the
entries. -/
structure Cuts (starts rows : List Nat) (width : Nat) : Prop where
  number : starts.length = width + 1
  first : starts.head? = some 0
  rising : starts.Pairwise (· ≤ ·)
  last : starts.getLast? = some rows.length

/-- No index into starts that cut entries is out of range, and no slice of the entries either. -/
theorem Cuts.mapM (cuts : Cuts starts rows width) :
    (List.range width).mapM (column? starts rows) = some (slices rows starts) := by
  obtain ⟨number, first, rising, last⟩ := cuts
  have inside (s : Nat) (hs : s ∈ starts) : s ≤ rows.length := by
    have top : starts.getLast (List.ne_nil_of_mem hs) = rows.length :=
      List.getLast_of_mem_getLast? last
    rw [← top]
    exact rising.rel_getLast hs
  cases starts with
  | nil => cases first
  | cons start starts =>
    obtain rfl : start = 0 := Option.some.inj first
    obtain rfl : starts.length = width := Nat.succ.inj number
    exact mapM_column? rising inside

theorem Cuts.column? (cuts : Cuts starts rows width) {c : Nat} (hc : c < width) :
    Archive.column? starts rows c = (slices rows starts)[c]? :=
  getElem?_mapM cuts.mapM (by simp [hc])

/-- The starts of an archive that are accepted. -/
theorem cuts_iff (number : a.colStart.length = width + 1) :
    Cuts a.colStart a.rows width ↔
      ¬ (a.colStart.head? ≠ some 0 ∨ a.colStart.getLast? ≠ some a.rows.length ∨
        !ascending a.colStart) := by
  have pointers : ¬ (a.colStart.head? ≠ some 0 ∨ a.colStart.getLast? ≠ some a.rows.length ∨
      !ascending a.colStart) ↔
      a.colStart.head? = some 0 ∧ a.colStart.getLast? = some a.rows.length ∧
        a.colStart.Pairwise (· ≤ ·) := by
    rw [← ascending_iff]
    simp
  rw [pointers]
  exact ⟨fun cuts => ⟨cuts.first, cuts.last, cuts.rising⟩,
    fun ⟨first, last, rising⟩ => ⟨number, first, rising, last⟩⟩

theorem toMatrixChecked_eq : a.toMatrixChecked key = some (a.toMatrix key) := by
  unfold toMatrixChecked toMatrix
  dsimp only
  split
  · rfl
  · rename_i length
    rw [not_not] at length
    have final : a.colStart[key.clusterCount * key.clusterCount]? = a.colStart.getLast? := by
      rw [List.getLast?_eq_getElem?, length]
      rfl
    obtain ⟨last, found⟩ := Option.isSome_iff_exists.mp
      (List.getLast?_isSome.mpr (List.ne_nil_of_length_eq_add_one length))
    rw [final, found, Option.bind_eq_bind, Option.bind_some]
    simp only [ne_eq, Option.some_inj]
    split
    · rfl
    · rename_i fine
      have cuts := (cuts_iff length).mpr (by simpa [found] using fine)
      rw [cuts.mapM]
      rfl

/-! ## Matrices -/

/-- Starts and entries are those of a matrix: they are cut into its columns, which ascend, have
edges of the matrix, and are empty within a cluster. -/
structure Lays (starts rows : List Nat) (m : AssignmentMatrix) : Prop where
  cuts : Cuts starts rows m.width
  words : ∀ s ∈ starts, s < Id.limit
  column : ∀ c < m.width, column? starts rows c = some (m.column c)
  ascending : ∀ c < m.width, Id.Ascending (m.column c)
  inside : ∀ c < m.width, ∀ e ∈ m.column c, e.index < m.edgeCount
  diagonal : ∀ i : ClusterId, i.index < m.clusterCount → m.edgesOf ⟨i, i⟩ = []

theorem cuts_startsOf (valid : m.Valid) :
    Cuts (startsOf 0 m.columns.toList)
      (m.columns.toList.flatMap fun column => column.map (·.index)) m.width where
  number := by rw [length_startsOf, Array.length_toList, valid.width]
  first := head?_startsOf
  rising := ascending_iff.mp ascending_startsOf
  last := by
    rw [getLast?_startsOf, length_rows]
    simp

theorem column?_startsOf (valid : m.Valid) {c : Nat} (hc : c < m.width) :
    column? (startsOf 0 m.columns.toList)
      (m.columns.toList.flatMap fun column => column.map (·.index)) c = some (m.column c) := by
  rw [(cuts_startsOf valid).column? hc, slices_startsOf, Array.getElem?_toList,
    valid.getElem?_columns hc]

theorem lt_limit_of_mem_startsOf (marks : m.markCount < Id.limit) {s : Nat}
    (hs : s ∈ startsOf 0 m.columns.toList) : s < Id.limit := by
  have := le_of_mem_startsOf hs
  rw [AssignmentMatrix.markCount] at marks
  omega

theorem lays_ofMatrix (valid : m.Valid) (clusters : m.clusterCount ≤ Id.limit)
    (marks : m.markCount < Id.limit) :
    Lays (ofMatrix key m).colStart (ofMatrix key m).rows m := by
  refine ⟨cuts_startsOf valid, fun s hs => lt_limit_of_mem_startsOf marks hs,
    fun c hc => column?_startsOf valid hc, fun c _ => (valid.column c).1,
    fun c _ => (valid.column c).2, fun i hi => ?_⟩
  have within : OdPair.Within ⟨i, i⟩ m.clusterCount := ⟨hi, hi⟩
  apply valid.diagonal
  rw [OdPair.ofColumn_eq within.column_lt clusters, within.ofIndex_column]
  exact beq_self_eq_true i

theorem length_flatten_slices_le : (slices rows starts).flatten.length ≤ rows.length := by
  fun_induction slices rows starts with
  | case1 rows first second rest ih =>
    rw [List.flatten_cons, List.length_append, List.length_map, List.length_take]
    rw [List.length_drop] at ih
    omega
  | case2 => exact Nat.zero_le _

/-- What is loaded from an archive: a matrix of the shape of the key with the edges that are stored
for each column. -/
structure Loads (a : Archive) (key : Key) (m : AssignmentMatrix) : Prop where
  edges : m.edgeCount = key.edgeCount
  clusters : m.clusterCount = key.clusterCount
  valid : m.Valid
  marks : m.markCount ≤ a.rows.length
  last : a.rows.length ∈ a.colStart
  column : ∀ c < m.width, ∃ stored, column? a.colStart a.rows c = some stored ∧
    ∀ e, e ∈ m.column c ↔ e ∈ stored

theorem loads_of_toMatrix (h : a.toMatrix key = .ok m) : a.Loads key m := by
  unfold toMatrix at h
  dsimp only at h
  split at h
  · cases h
  rename_i number
  split at h
  · cases h
  rename_i fine
  have cuts := (cuts_iff (not_not.mp number)).mpr fine
  have valid := AssignmentMatrix.valid_of_ofColumns h
  obtain ⟨-, rfl⟩ := AssignmentMatrix.ofColumns_eq_ok.mp h
  refine ⟨rfl, rfl, valid, ?_, List.mem_of_getLast? cuts.last, fun c hc => ?_⟩
  · refine Nat.le_trans ?_ (@length_flatten_slices_le a.rows a.colStart)
    rw [AssignmentMatrix.markCount, List.toList_toArray, List.length_flatten, List.length_flatten,
      List.map_map]
    exact List.sum_le_sum fun column _ => Id.length_sortUnique_le column
  · have place : c < (slices a.rows a.colStart).length := by
      have size := valid.width
      simp only [List.size_toArray, List.length_map] at size
      rwa [size]
    refine ⟨(slices a.rows a.colStart)[c], ?_, fun e => ?_⟩
    · rw [cuts.column? hc, List.getElem?_eq_getElem place]
    · rw [AssignmentMatrix.column_eq, List.toList_toArray, List.getElem?_map,
        List.getElem?_eq_getElem place]
      exact Id.mem_sortUnique

/-- Starts that are read are machine words. -/
theorem lt_of_decode {bytes : Bytes} {s : Nat} (h : decode bytes = .ok a) (hs : s ∈ a.colStart) :
    s < Id.limit := by
  unfold decode at h
  simp only [bind_eq_ok, Prod.exists] at h
  obtain ⟨_, _, -, _, _, -, _, _, -, _, _, -, _, _, -, _, _, -, _, _, -, _, _, taken, _, _, -, last⟩ :=
    h
  cases last
  exact takeWords_lt taken hs

end Archive

variable {key : Key} {m : AssignmentMatrix} {bytes : Bytes} {files : FileTree} {path : Path}

theorem read_eq_ok :
    read key bytes = .ok m ↔ ∃ a, Archive.decode bytes = .ok a ∧ a.mismatch? key = none ∧
      a.toMatrix key = .ok m := by
  rw [read, bind_eq_ok]
  simp only [mapError_eq_ok]
  refine exists_congr fun a => and_congr_right fun _ => ?_
  cases a.mismatch? key <;> simp

/-- `load` with a check on every index and slice that it takes. -/
def loadChecked (files : FileTree) (path : Path) (key : Key) :
    Option (Except MatrixFault AssignmentMatrix) :=
  match files.read path with
  | .error fault => some (.error (.storage fault))
  | .ok bytes =>
    match Archive.decode bytes with
    | .error fault => some (.error (.encoding fault))
    | .ok archive =>
      match archive.mismatch? key with
      | some reason => some (.error (.stale reason))
      | none => archive.toMatrixChecked key

theorem loadChecked_eq : loadChecked files path key = some (load files path key) := by
  unfold loadChecked load read
  cases files.read path with
  | error fault => rfl
  | ok bytes =>
    simp only [Except.mapError, bind, Except.bind]
    cases Archive.decode bytes with
    | error fault => rfl
    | ok a =>
      dsimp only
      cases a.mismatch? key with
      | some reason => rfl
      | none => exact Archive.toMatrixChecked_eq

/-- Whatever a file holds, loading it takes no index or slice out of range, and gives a fault or a
matrix of the shape of the key that is laid out as it has to be and has the edges that the file
stores for each column. -/
theorem load_safe (words : key.clusterCount * key.clusterCount < 2 ^ 64) :
    loadChecked files path key = some (load files path key) ∧
    ∀ m, load files path key = .ok m →
      m.edgeCount = key.edgeCount ∧ m.clusterCount = key.clusterCount ∧
      (∀ held, Archive.Lays (Archive.ofMatrix held m).colStart (Archive.ofMatrix held m).rows m) ∧
      ∃ bytes a, files.read path = .ok bytes ∧ Archive.decode bytes = .ok a ∧
        ∀ c < m.width, ∃ stored, Archive.column? a.colStart a.rows c = some stored ∧
          ∀ e, e ∈ m.column c ↔ e ∈ stored := by
  refine ⟨loadChecked_eq, fun m loaded => ?_⟩
  obtain ⟨bytes, taken, found⟩ := bind_eq_ok.mp loaded
  obtain ⟨a, decoded, -, made⟩ := read_eq_ok.mp found
  obtain ⟨edges, clusters, valid, marks, last, column⟩ := Archive.loads_of_toMatrix made
  have few : m.clusterCount ≤ Id.limit := by
    by_contra many
    rw [← clusters] at words
    have limit : Id.limit = 2 ^ 32 := rfl
    have square := Nat.mul_le_mul (Nat.le_of_not_le many) (Nat.le_of_not_le many)
    rw [limit] at square
    omega
  have small : m.markCount < Id.limit := Nat.lt_of_le_of_lt marks (Archive.lt_of_decode decoded last)
  exact ⟨edges, clusters, fun held => Archive.lays_ofMatrix valid few small,
    bytes, a, mapError_eq_ok.mp taken, decoded, column⟩

theorem load_safe_sample :
    ∃ files path, loadChecked files path .sample = some (.ok .sample) ∧
      Archive.Lays (Archive.ofMatrix .sample .sample).colStart
        (Archive.ofMatrix .sample .sample).rows .sample := by
  let bytes := (Archive.ofMatrix .sample .sample).encode
  have written : write .sample .sample = .ok bytes := rfl
  have held : (FileTree.mk [("matrix", .file bytes)]).read ⟨[], ["matrix"]⟩ = .ok bytes := rfl
  have loaded : load _ _ .sample = .ok .sample := (load_held held).trans
    (read_write written AssignmentMatrix.sample_valid Archive.sample_storable)
  obtain ⟨checked, sound⟩ := @load_safe Key.sample _ _ (by decide)
  obtain ⟨-, -, lays, -⟩ := sound _ loaded
  exact ⟨_, _, checked.trans (congrArg some loaded), lays _⟩

end RoadFlow.Cache
