import RoadFlow.Matrix.Product
import RoadFlow.Proofs.Except
import RoadFlow.Proofs.Id

/-!
# Columns of assignment matrices

Pairs are numbered origin by origin without a gap (`OdPair.all_eq`), and a matrix keeps the edges
given for each pair, sorted and without repeats, provided that they are edges of it and that pairs
within one cluster have none (`ofColumns_eq_ok`).
-/

namespace RoadFlow

namespace OdPair

variable {z : Nat} {p : OdPair}

/-- The pair of a column, its clusters with all the digits of their numbers. -/
def ofIndex (z c : Nat) : OdPair := ⟨⟨c / z⟩, ⟨c % z⟩⟩

/-- All pairs in the order of their columns. -/
def all (z : Nat) : List OdPair := (List.range (z * z)).map (ofIndex z)

/-- The clusters of a pair are below a bound. -/
def Within (p : OdPair) (z : Nat) : Prop := p.origin.index < z ∧ p.destination.index < z

theorem Within.column_lt (h : p.Within z) : p.column z < z * z := by
  obtain ⟨origin, destination⟩ := h
  have rows : (p.origin.index + 1) * z ≤ z * z := Nat.mul_le_mul_right z origin
  rw [column]
  rw [Nat.add_mul, Nat.one_mul] at rows
  omega

theorem ofIndex_add {i j : Nat} (hj : j < z) : ofIndex z (i * z + j) = ⟨⟨i⟩, ⟨j⟩⟩ := by
  have positive : 0 < z := by omega
  rw [ofIndex, Nat.mul_comm, Nat.mul_add_div positive, Nat.mul_add_mod, Nat.div_eq_of_lt hj,
    Nat.mod_eq_of_lt hj, Nat.add_zero]

theorem Within.ofIndex_column (h : p.Within z) : ofIndex z (p.column z) = p := ofIndex_add h.2

theorem ofIndex_within {c : Nat} (h : c < z * z) : (ofIndex z c).Within z := by
  have positive : 0 < z := Nat.pos_of_ne_zero fun none => by simp [none] at h
  exact ⟨Nat.div_lt_of_lt_mul h, Nat.mod_lt c positive⟩

theorem column_ofIndex (z c : Nat) : (ofIndex z c).column z = c := by
  rw [ofIndex, column, Nat.mul_comm]
  exact Nat.div_add_mod c z

/-- Numbers of 32 bits keep all their digits. -/
theorem ofColumn_eq {c : Nat} (h : c < z * z) (small : z ≤ Id.limit) :
    ofColumn c z = ofIndex z c := by
  have origin : c / z < z := (ofIndex_within h).1
  have destination : c % z < z := (ofIndex_within h).2
  rw [ofColumn, Id.truncate, Id.truncate, Nat.mod_eq_of_lt (Nat.lt_of_lt_of_le origin small),
    Nat.mod_eq_of_lt (Nat.lt_of_lt_of_le destination small), ofIndex]

@[simp] theorem length_all (z : Nat) : (all z).length = z * z := by simp [all]

theorem mem_all : p ∈ all z ↔ p.Within z := by
  rw [all, List.mem_map]
  constructor
  · rintro ⟨c, hc, rfl⟩
    exact ofIndex_within (List.mem_range.mp hc)
  · intro h
    exact ⟨p.column z, List.mem_range.mpr h.column_lt, h.ofIndex_column⟩

theorem getElem?_all {c : Nat} (h : c < z * z) : (all z)[c]? = some (ofIndex z c) := by
  simp [all, h]

/-- Pairs stand in the order of their columns, each once. -/
theorem column_all (z : Nat) : (all z).map (·.column z) = List.range (z * z) := by
  rw [all, List.map_map]
  exact (List.map_congr_left fun c _ => column_ofIndex z c).trans (List.map_id _)

theorem all_eq (z : Nat) :
    all z = ((List.range z).map Id.mk).flatMap fun i => ((List.range z).map Id.mk).map (mk i) := by
  have rows (n : Nat) : (List.range (n * z)).map (ofIndex z) =
      ((List.range n).map Id.mk).flatMap fun i => ((List.range z).map Id.mk).map (mk i) := by
    induction n with
    | zero => simp
    | succ n ih =>
      have last : (List.range z).map (fun j => ofIndex z (n * z + j)) =
          ((List.range z).map Id.mk).map (mk ⟨n⟩) := by
        rw [List.map_map]
        exact List.map_congr_left fun j hj => ofIndex_add (List.mem_range.mp hj)
      rw [Nat.add_mul, Nat.one_mul, List.range_add, List.map_append, ih, List.range_succ,
        List.map_append, List.flatMap_append, List.map_map]
      simpa using last
  exact rows z

end OdPair

namespace AssignmentMatrix

variable {edgeCount clusters : Nat} {edges : List EdgeId}

theorem checkColumn_eq_ok {c : Nat} {sorted : List EdgeId} :
    checkColumn edgeCount clusters edges c = .ok sorted ↔
      ((OdPair.ofColumn c clusters).isDiagonal = true → edges = []) ∧
      (∀ e ∈ edges, e.index < edgeCount) ∧ sorted = Id.sortUnique edges := by
  rw [checkColumn]
  split
  · rename_i diagonal
    simp only [Bool.and_eq_true, Bool.not_eq_true', List.isEmpty_eq_false_iff] at diagonal
    simp [diagonal]
  · rename_i fine
    have empty : (OdPair.ofColumn c clusters).isDiagonal = true → edges = [] := by
      intro diagonal
      simpa [diagonal] using fine
    dsimp only
    split
    · rename_i e found
      have large := List.find?_some found
      have mem := Id.mem_sortUnique.mp (List.mem_of_find?_eq_some found)
      simp only [reduceCtorEq, false_iff, not_and]
      intro _ small
      have := small e mem
      simp only [decide_eq_true_eq] at large
      omega
    · rename_i none
      have small : ∀ e ∈ edges, e.index < edgeCount := by
        intro e he
        simpa using List.find?_eq_none.mp none e (Id.mem_sortUnique.mpr he)
      constructor
      · intro same
        exact ⟨empty, small, (Except.ok.inj same).symm⟩
      · rintro ⟨-, -, rfl⟩
        rfl

/-- Lists of edges that make a matrix: one for each pair, of edges of the matrix, and an empty one
within a cluster. -/
structure Acceptable (edgeCount clusters : Nat) (columns : List (List EdgeId)) : Prop where
  positive : 0 < clusters
  width : columns.length = clusters * clusters
  diagonal : ∀ {c edges}, columns[c]? = some edges →
    (OdPair.ofColumn c clusters).isDiagonal = true → edges = []
  inside : ∀ {edges}, edges ∈ columns → ∀ e ∈ edges, e.index < edgeCount

variable {columns : List (List EdgeId)} {m : AssignmentMatrix}

/-- Acceptable lists are kept, each sorted and without repeats, and no others are. -/
theorem ofColumns_eq_ok : ofColumns edgeCount clusters columns = .ok m ↔
    Acceptable edgeCount clusters columns ∧
      m = ⟨edgeCount, clusters, (columns.map Id.sortUnique).toArray⟩ := by
  have sorted : (columns.zipIdx.map fun x => Id.sortUnique x.1) = columns.map Id.sortUnique := by
    have first : (fun x : List EdgeId × Nat => Id.sortUnique x.1) = Id.sortUnique ∘ Prod.fst := rfl
    rw [first, ← List.map_map, List.zipIdx_map_fst]
  constructor
  · intro h
    rw [ofColumns] at h
    split at h
    · cases h
    rename_i positive
    split at h
    · cases h
    rename_i width
    obtain ⟨checked, run, rest⟩ := bind_eq_ok.mp h
    cases rest
    obtain ⟨same, each⟩ := eq_map_of_mapM (g := fun x : List EdgeId × Nat => Id.sortUnique x.1)
      (fun call => (checkColumn_eq_ok.mp call).2.2) run
    have held {c : Nat} {edges : List EdgeId} (place : columns[c]? = some edges) :=
      checkColumn_eq_ok.mp (each (edges, c) (List.mk_mem_zipIdx_iff_getElem?.mpr place))
    refine ⟨⟨Nat.pos_of_ne_zero positive, not_not.mp width, fun place => (held place).1,
      fun mem => ?_⟩, by rw [same, sorted]⟩
    obtain ⟨c, place⟩ := List.getElem?_of_mem mem
    exact (held place).2.1
  · rintro ⟨⟨positive, width, diagonal, inside⟩, rfl⟩
    have checked : (columns.zipIdx.mapM fun x => checkColumn edgeCount clusters x.1 x.2) =
        .ok (columns.zipIdx.map fun x => Id.sortUnique x.1) := by
      apply mapM_eq_map
      rintro ⟨edges, c⟩ mem
      have place := List.mk_mem_zipIdx_iff_getElem?.mp mem
      exact checkColumn_eq_ok.mpr ⟨diagonal place, inside (List.mem_of_getElem? place), rfl⟩
    rw [sorted] at checked
    rw [ofColumns, if_neg (Nat.ne_of_gt positive), if_neg (not_not.mpr width)]
    exact bind_eq_ok.mpr ⟨_, checked, rfl⟩

/-- The column of a pair can hold some edges: edges of the matrix, and none within a cluster. -/
def Fits (edgeCount : Nat) (p : OdPair) (edges : List EdgeId) : Prop :=
  (p.origin = p.destination → edges = []) ∧ ∀ e ∈ edges, e.index < edgeCount

/-- The matrix that holds what is given for each pair. -/
def ofRoutes (edgeCount clusters : Nat) (routes : OdPair → List EdgeId) : AssignmentMatrix :=
  ⟨edgeCount, clusters, ((OdPair.all clusters).map fun p => Id.sortUnique (routes p)).toArray⟩

theorem ofColumns_routes {routes : OdPair → List EdgeId} (positive : 0 < clusters)
    (small : clusters ≤ Id.limit)
    (fits : ∀ p, p.Within clusters → Fits edgeCount p (routes p)) :
    ofColumns edgeCount clusters ((OdPair.all clusters).map routes) =
      .ok (ofRoutes edgeCount clusters routes) := by
  refine ofColumns_eq_ok.mpr ⟨⟨positive, by simp, ?_, ?_⟩, by rw [ofRoutes, List.map_map]; rfl⟩
  · intro c edges place diagonal
    rw [List.getElem?_map, Option.map_eq_some_iff] at place
    obtain ⟨p, found, rfl⟩ := place
    have hc : c < clusters * clusters := by simpa using (List.getElem?_eq_some_iff.mp found).1
    rw [OdPair.getElem?_all hc] at found
    cases found
    rw [OdPair.ofColumn_eq hc small] at diagonal
    exact (fits _ (OdPair.ofIndex_within hc)).1 (by simpa [OdPair.isDiagonal] using diagonal)
  · intro edges mem
    obtain ⟨p, found, rfl⟩ := List.mem_map.mp mem
    exact (fits p (OdPair.mem_all.mp found)).2

variable {routes : OdPair → List EdgeId} {p : OdPair}

theorem column_ofRoutes (h : p.Within clusters) :
    (ofRoutes edgeCount clusters routes).column (p.column clusters) =
      Id.sortUnique (routes p) := by
  simp [column, ofRoutes, OdPair.getElem?_all h.column_lt, h.ofIndex_column]

theorem edgesOf_ofRoutes (h : p.Within clusters) :
    (ofRoutes edgeCount clusters routes).edgesOf p = Id.sortUnique (routes p) :=
  column_ofRoutes h

theorem entry_eq_one {m : AssignmentMatrix} {e : EdgeId} {p : OdPair} :
    (m.entry e p : Float32) = 1 ↔ e ∈ m.edgesOf p := by
  have different : ¬ (0 : Float32) = 1 := by decide
  have marked : m.marks e (p.column m.clusterCount) = true ↔ e ∈ m.edgesOf p := by
    simp [marks, edgesOf]
  rw [← marked, entry]
  split
  · rename_i h
    exact ⟨fun _ => h, fun _ => rfl⟩
  · rename_i h
    exact ⟨fun same => absurd same different, fun same => absurd same h⟩

theorem nodup_columnsOf (m : AssignmentMatrix) (e : EdgeId) : (m.columnsOf e).Nodup :=
  List.nodup_range.filter _

/-! ## Valid matrices -/

/-- A column for each pair, ascending, of edges of the matrix, and none within a cluster. -/
structure Valid (m : AssignmentMatrix) : Prop where
  positive : 0 < m.clusterCount
  width : m.columns.size = m.width
  ascending : ∀ {column}, column ∈ m.columns.toList → Id.Ascending column
  inside : ∀ {column e}, column ∈ m.columns.toList → e ∈ column → e.index < m.edgeCount
  diagonal : ∀ {c}, (OdPair.ofColumn c m.clusterCount).isDiagonal = true → m.column c = []

theorem column_eq {c : Nat} : m.column c = m.columns.toList[c]?.getD [] := by
  simp [column, Array.getD_eq_getD_getElem?]

theorem Valid.getElem?_columns (valid : m.Valid) {c : Nat} (hc : c < m.width) :
    m.columns[c]? = some (m.column c) := by
  have small : c < m.columns.size := by rwa [valid.width]
  simp [AssignmentMatrix.column, small]

theorem Valid.column (valid : m.Valid) (c : Nat) :
    Id.Ascending (m.column c) ∧ ∀ e ∈ m.column c, e.index < m.edgeCount := by
  rw [column_eq]
  cases found : m.columns.toList[c]? with
  | none => exact ⟨List.Pairwise.nil, nofun⟩
  | some edges =>
    have mem := List.mem_of_getElem? found
    exact ⟨valid.ascending mem, fun e he => valid.inside mem he⟩

theorem Valid.columns_eq (valid : m.Valid) :
    (List.range m.width).map m.column = m.columns.toList := by
  refine List.ext_getElem? fun c => ?_
  by_cases hc : c < m.width
  · rw [List.getElem?_map, List.getElem?_range hc, Option.map_some, Array.getElem?_toList,
      valid.getElem?_columns hc]
  · have size := valid.width
    rw [List.getElem?_eq_none, List.getElem?_eq_none] <;> simp <;> omega

/-- A valid matrix is known by the edges of its columns. -/
theorem Valid.ext {other : AssignmentMatrix} (valid : m.Valid) (valid' : other.Valid)
    (edges : m.edgeCount = other.edgeCount) (clusters : m.clusterCount = other.clusterCount)
    (same : ∀ c < m.width, ∀ e : EdgeId, e.index < m.edgeCount →
      (e ∈ m.column c ↔ e ∈ other.column c)) : m = other := by
  have width : m.width = other.width := by rw [AssignmentMatrix.width, clusters]; rfl
  have column {c : Nat} (hc : c < m.width) : m.column c = other.column c := by
    obtain ⟨ascending, inside⟩ := valid.column c
    obtain ⟨ascending', inside'⟩ := valid'.column c
    refine ascending.ext ascending' fun e => ⟨fun he => ?_, fun he => ?_⟩
    · exact (same c hc e (inside e he)).mp he
    · exact (same c hc e (edges ▸ inside' e he)).mpr he
  have columns : m.columns.toList = other.columns.toList := by
    rw [← valid.columns_eq, ← valid'.columns_eq, ← width]
    exact List.map_congr_left fun c mem => column (List.mem_range.mp mem)
  cases m
  cases other
  simp_all [Array.toList_inj]

theorem shape_of_ofColumns (h : ofColumns edgeCount clusters columns = .ok m) :
    m.edgeCount = edgeCount ∧ m.clusterCount = clusters := by
  obtain ⟨-, rfl⟩ := ofColumns_eq_ok.mp h
  exact ⟨rfl, rfl⟩

theorem valid_of_ofColumns (h : ofColumns edgeCount clusters columns = .ok m) : m.Valid := by
  obtain ⟨⟨positive, width, diagonal, inside⟩, rfl⟩ := ofColumns_eq_ok.mp h
  refine ⟨positive, by simpa [AssignmentMatrix.width] using width, ?_, ?_, ?_⟩
  · intro column mem
    obtain ⟨edges, -, rfl⟩ := List.mem_map.mp mem
    exact Id.ascending_sortUnique edges
  · intro column e mem he
    obtain ⟨edges, given, rfl⟩ := List.mem_map.mp mem
    exact inside given e (Id.mem_sortUnique.mp he)
  · intro c within
    rw [column_eq, List.toList_toArray, List.getElem?_map]
    cases place : columns[c]? with
    | none => rfl
    | some edges =>
      rw [diagonal place within]
      exact Id.sortUnique_of_ascending List.Pairwise.nil

/-- A valid matrix is accepted as it is. -/
theorem ofColumns_columns (valid : m.Valid) :
    ofColumns m.edgeCount m.clusterCount m.columns.toList = .ok m := by
  refine ofColumns_eq_ok.mpr ⟨⟨valid.positive, valid.width, fun place within => ?_,
    fun mem e he => valid.inside mem he⟩, ?_⟩
  · have empty := valid.diagonal within
    rwa [column_eq, place] at empty
  · have sorted : m.columns.toList.map Id.sortUnique = m.columns.toList :=
      (List.map_congr_left fun column mem =>
        Id.sortUnique_of_ascending (valid.ascending mem)).trans (List.map_id _)
    rw [sorted, Array.toArray_toList]

/-- Three edges and two clusters, with routes both ways that have an edge in common. -/
def sample : AssignmentMatrix := ⟨3, 2, #[[], [⟨0⟩, ⟨1⟩], [⟨1⟩, ⟨2⟩], []]⟩

theorem sample_valid : sample.Valid where
  positive := by decide
  width := rfl
  ascending := by simp [sample, Id.Ascending]
  inside := by
    have small : ∀ column ∈ sample.columns.toList, ∀ e ∈ column, e.index < 3 := by decide
    intro column e mem he
    exact small column mem e he
  diagonal := by
    intro c within
    match c with
    | 0 | 3 | _ + 4 => rfl
    | 1 | 2 => exact absurd within (by decide)

end AssignmentMatrix

end RoadFlow
