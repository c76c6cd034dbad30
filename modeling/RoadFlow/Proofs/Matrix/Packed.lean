import RoadFlow.Proofs.Cache.Loading

/-!
# Packed matrices

A matrix is kept in two arrays: the marked edges column by column, and where each column starts
among them, in 32 bits. Packing one column at a time gives the arrays of the matrix
(`Packed.ofColumns_eq`). As long as the marks can be counted in 32 bits, whatever is read from the
arrays, with a check on every index, is what the matrix has there (`reads_pack`), so distinct
matrices have distinct arrays (`pack_inj`).
-/

namespace RoadFlow

/-! ## Binary search -/

namespace Id

variable {k : Entity}

/-- Whether an identifier is found between two places of an array, by halving. -/
def foundBetween (ids : Array (Id k)) (id : Id k) (low high : Nat) (inside : high ≤ ids.size) :
    Bool :=
  if h : low < high then
    let middle := low + (high - low) / 2
    have : middle < ids.size := by omega
    if ids[middle] = id then true
    else if ids[middle].index < id.index then foundBetween ids id (middle + 1) high inside
    else foundBetween ids id low middle (by omega)
  else false
termination_by high - low

def search (ids : Array (Id k)) (id : Id k) : Bool := foundBetween ids id 0 ids.size le_rfl

variable {ids : Array (Id k)} {id : Id k}

theorem Ascending.index_lt (ascending : Ascending ids.toList) {i j : Nat} (below : i < j)
    (hj : j < ids.size) : ids[i].index < ids[j].index := by
  have := List.pairwise_iff_getElem.mp ascending i j (Nat.lt_trans below hj) hj below
  simpa only [Array.getElem_toList] using this

theorem foundBetween_iff (ascending : Ascending ids.toList) {low high : Nat}
    {inside : high ≤ ids.size} :
    foundBetween ids id low high inside = true ↔ ∃ i, low ≤ i ∧ i < high ∧ ids[i]? = some id := by
  fun_induction foundBetween ids id low high inside with
  | case1 low high inside h middle hm found =>
    simp only [true_iff]
    exact ⟨middle, by omega, by omega, by simp [hm, found]⟩
  | case2 low high inside h middle hm other less ih =>
    rw [ih]
    constructor
    · rintro ⟨i, above, below, found⟩
      exact ⟨i, by omega, below, found⟩
    · rintro ⟨i, above, below, found⟩
      refine ⟨i, ?_, below, found⟩
      obtain ⟨hi, rfl⟩ := Array.getElem?_eq_some_iff.mp found
      -- what stands up to the middle is too low
      by_contra! before
      rcases Nat.lt_or_eq_of_le (Nat.le_of_lt_succ before) with before | rfl
      · exact Nat.lt_asymm less (ascending.index_lt before hm)
      · exact other rfl
  | case3 low high inside h middle hm other less ih =>
    rw [ih]
    constructor
    · rintro ⟨i, above, below, found⟩
      exact ⟨i, above, by omega, found⟩
    · rintro ⟨i, above, below, found⟩
      refine ⟨i, above, ?_, found⟩
      obtain ⟨hi, rfl⟩ := Array.getElem?_eq_some_iff.mp found
      -- what stands from the middle on is too high
      by_contra! after
      rcases Nat.lt_or_eq_of_le after with after | rfl
      · exact less (ascending.index_lt after hi)
      · exact other rfl
  | case4 low high inside h =>
    simp only [Bool.false_eq_true, false_iff]
    rintro ⟨i, above, below, -⟩
    omega

theorem search_eq {ids : List (Id k)} (ascending : Ascending ids) :
    search ids.toArray id = ids.contains id := by
  rw [Bool.eq_iff_iff, search, foundBetween_iff ascending, List.contains_iff_mem,
    List.mem_iff_getElem?]
  constructor
  · rintro ⟨i, -, -, found⟩
    exact ⟨i, by simpa using found⟩
  · rintro ⟨i, found⟩
    have inside := (List.getElem?_eq_some_iff.mp found).1
    exact ⟨i, Nat.zero_le i, by simpa using inside, by simpa using found⟩

end Id

/-! ## Dense arrays -/

/-- An array of some shape, its cells in row-major order. -/
structure Dense (α : Type) (shape : List Nat) where
  cells : Vector α shape.prod

namespace Dense

variable {α : Type} [Scalar α] {shape place other : List Nat} {n n' k : Nat}

/-- The number of a cell after `n` whole arrays of the shape, if no coordinate is out of range. -/
def offset : List Nat → List Nat → Nat → Option Nat
  | [], [], n => some n
  | size :: shape, i :: place, n => if i < size then offset shape place (n * size + i) else none
  | _, _, _ => none

def get? (d : Dense α shape) (place : List Nat) : Option α :=
  (offset shape place 0).bind fun k => d.cells[k]?

def zeros (shape : List Nat) : Dense α shape := ⟨.replicate _ 0⟩

/-- The array with a one at a place. -/
def mark? (d : Dense α shape) (place : List Nat) : Option (Dense α shape) :=
  (offset shape place 0).map fun k => ⟨d.cells.setIfInBounds k 1⟩

def markAll? (d : Dense α shape) (places : List (List Nat)) : Option (Dense α shape) :=
  places.foldlM mark? d

theorem offset_lt (h : offset shape place n = some k) : k < (n + 1) * shape.prod := by
  fun_induction offset shape place n with
  | case1 n =>
    cases h
    simp
  | case2 size shape i place n inside ih =>
    have block : n * size + i + 1 ≤ (n + 1) * size := by
      rw [Nat.add_mul, Nat.one_mul]
      omega
    rw [List.prod_cons, ← Nat.mul_assoc]
    exact Nat.lt_of_lt_of_le (ih h) (Nat.mul_le_mul_right _ block)
  | case3 | case4 => cases h

/-- Each cell has one number. -/
theorem offset_inj (h : offset shape place n = some k) (h' : offset shape other n' = some k) :
    n = n' ∧ place = other := by
  induction shape generalizing place other n n' with
  | nil =>
    cases place <;> cases other <;> simp_all [offset]
  | cons size shape ih =>
    cases place with
    | nil => cases h
    | cons i place =>
      cases other with
      | nil => cases h'
      | cons j other =>
        rw [offset, Option.ite_none_right_eq_some] at h h'
        obtain ⟨hi, h⟩ := h
        obtain ⟨hj, h'⟩ := h'
        obtain ⟨same, rfl⟩ := ih h h'
        have positive : 0 < size := by omega
        -- the coordinate is what is left over of whole blocks
        have remainder := congrArg (· % size) same
        simp only [Nat.mul_add_mod', Nat.mod_eq_of_lt hi, Nat.mod_eq_of_lt hj] at remainder
        subst remainder
        have block : n * size = n' * size := by omega
        exact ⟨Nat.eq_of_mul_eq_mul_right positive block, rfl⟩

theorem get?_zeros (inside : (offset shape place 0).isSome) :
    (zeros shape : Dense α shape).get? place = some 0 := by
  obtain ⟨k, number⟩ := Option.isSome_iff_exists.mp inside
  have hk : k < shape.prod := by simpa using offset_lt number
  simp [get?, zeros, number, hk]

theorem get?_mark? {d marked : Dense α shape} (h : d.mark? place = some marked) :
    marked.get? other = if other = place then some 1 else d.get? other := by
  obtain ⟨k, number, rfl⟩ := Option.map_eq_some_iff.mp h
  have hk : k < shape.prod := by simpa using offset_lt number
  split
  · rename_i same
    subst same
    simp [get?, number, hk]
  · rename_i different
    refine Option.bind_congr fun j hj => ?_
    have apart : k ≠ j := by
      rintro rfl
      exact different (offset_inj hj number).2
    simp [Vector.getElem?_setIfInBounds_ne apart]

theorem markAll?_ok (d : Dense α shape) {places : List (List Nat)}
    (inside : ∀ place ∈ places, (offset shape place 0).isSome) :
    ∃ marked, d.markAll? places = some marked ∧
      ∀ place, marked.get? place = if place ∈ places then some 1 else d.get? place := by
  induction places generalizing d with
  | nil => exact ⟨d, rfl, by simp⟩
  | cons first places ih =>
    rw [List.forall_mem_cons] at inside
    obtain ⟨k, number⟩ := Option.isSome_iff_exists.mp inside.1
    have step : d.mark? first = some ⟨d.cells.setIfInBounds k 1⟩ := by rw [mark?, number]; rfl
    obtain ⟨marked, run, reads⟩ := ih ⟨d.cells.setIfInBounds k 1⟩ inside.2
    refine ⟨marked, ?_, fun place => ?_⟩
    · rw [markAll?, List.foldlM_cons, step]
      exact run
    · rw [reads, get?_mark? step]
      by_cases later : place ∈ places <;> simp [later]

end Dense

/-! ## Packed arrays -/

open Cache (Archive)

/-- Two arrays that stand for a matrix: where each column starts, and the marked edges column by
column. -/
structure Packed where
  edgeCount : Nat
  clusterCount : Nat
  starts : List Nat
  rows : List EdgeId
  deriving DecidableEq

namespace Packed

/-- One more column behind the others. Where it ends is kept in 32 bits. -/
def push (p : Packed) (column : List EdgeId) : Packed :=
  { p with
    starts := p.starts ++ [(p.rows ++ column).length % Id.limit]
    rows := p.rows ++ column }

/-- The columns are checked and packed one after another, up to the first fault. -/
def ofColumns (edgeCount clusters : Nat) (columns : List (List EdgeId)) :
    Except MatrixFault Packed :=
  let width := clusters * clusters
  if clusters = 0 then .error .noClusters
  else if columns.length ≠ width then .error (.shape ⟨"OD columns", width, columns.length⟩)
  else
    columns.zipIdx.foldlM
      (fun p (edges, c) => p.push <$> AssignmentMatrix.checkColumn edgeCount clusters edges c)
      ⟨edgeCount, clusters, [0], []⟩

/-! Each index below is checked, and each slice. -/

def column? (p : Packed) (c : Nat) : Option (List EdgeId) :=
  Archive.column? p.starts (p.rows.map (·.index)) c

def edgesOf? (p : Packed) (pair : OdPair) : Option (List EdgeId) :=
  p.column? (pair.column p.clusterCount)

variable {α : Type} [Scalar α]

def entry? (p : Packed) (e : EdgeId) (pair : OdPair) : Option α := do
  let edges ← p.edgesOf? pair
  return if Id.search edges.toArray e then 1 else 0

/-- All marks, column by column. -/
def marks? (p : Packed) : Option (List (EdgeId × Nat)) := do
  let columns ← (List.range (p.clusterCount * p.clusterCount)).mapM fun c => do
    return (← p.column? c).map (·, c)
  return columns.flatten

def toDense? (p : Packed) : Option (Dense α [p.edgeCount, p.clusterCount * p.clusterCount]) := do
  let marks ← p.marks?
  (Dense.zeros _).markAll? (marks.map fun (e, c) => [e.index, c])

def toDensePairs? (p : Packed) :
    Option (Dense α [p.edgeCount, p.clusterCount, p.clusterCount]) := do
  let marks ← p.marks?
  (Dense.zeros _).markAll?
    (marks.map fun (e, c) => [e.index, c / p.clusterCount, c % p.clusterCount])

end Packed

namespace AssignmentMatrix

variable {α : Type} [Scalar α] {m other : AssignmentMatrix}

def pack (m : AssignmentMatrix) : Packed :=
  ⟨m.edgeCount, m.clusterCount, (Archive.startsOf 0 m.columns.toList).map (· % Id.limit),
    m.columns.toList.flatten⟩

theorem foldl_push (edgeCount clusters : Nat) (starts : List Nat) (rows : List EdgeId)
    (columns : List (List EdgeId)) :
    columns.foldl Packed.push ⟨edgeCount, clusters, starts ++ [rows.length % Id.limit], rows⟩ =
      ⟨edgeCount, clusters, starts ++ (Archive.startsOf rows.length columns).map (· % Id.limit),
        rows ++ columns.flatten⟩ := by
  induction columns generalizing starts rows with
  | nil => simp [Archive.startsOf]
  | cons column columns ih =>
    rw [List.foldl_cons, Packed.push, ih]
    simp [Archive.startsOf]

/-- Columns are packed as they are checked, and so make the arrays of the matrix. -/
theorem ofColumns_pack (edgeCount clusters : Nat) (columns : List (List EdgeId)) :
    Packed.ofColumns edgeCount clusters columns =
      (ofColumns edgeCount clusters columns).map pack := by
  rw [Packed.ofColumns, ofColumns]
  split
  · rfl
  split
  · rfl
  rw [foldlM_eq_map]
  cases columns.zipIdx.mapM fun (edges, c) => checkColumn edgeCount clusters edges c with
  | error fault => rfl
  | ok checked =>
    refine congrArg Except.ok ?_
    exact foldl_push edgeCount clusters [] [] checked

variable (valid : m.Valid) (marks : m.markCount < Id.limit)

include valid marks

theorem column?_pack {c : Nat} (hc : c < m.width) : m.pack.column? c = some (m.column c) := by
  have starts : (Archive.startsOf 0 m.columns.toList).map (· % Id.limit) =
      Archive.startsOf 0 m.columns.toList :=
    (List.map_congr_left fun s hs =>
      Nat.mod_eq_of_lt (Archive.lt_limit_of_mem_startsOf marks hs)).trans (List.map_id _)
  rw [Packed.column?, pack, starts, List.map_flatten]
  exact Archive.column?_startsOf valid hc

theorem entry?_pack {p : OdPair} (within : p.Within m.clusterCount) (e : EdgeId) :
    m.pack.entry? e p = some (m.entry e p : α) := by
  have column : m.pack.edgesOf? p = some (m.edgesOf p) := column?_pack valid marks within.column_lt
  have found : Id.search (m.edgesOf p).toArray e = (m.edgesOf p).contains e :=
    Id.search_eq (valid.column _).1
  rw [Packed.entry?, column, Option.bind_eq_bind, Option.bind_some, found]
  rfl

theorem marks?_pack :
    m.pack.marks? = some ((List.range m.width).flatMap fun c => (m.column c).map (·, c)) := by
  have columns : ((List.range m.width).mapM fun c => do
      return (← m.pack.column? c).map (·, c)) =
        some ((List.range m.width).map fun c => (m.column c).map (·, c)) := by
    refine mapM_eq_some fun c mem => ?_
    rw [column?_pack valid marks (List.mem_range.mp mem)]
    rfl
  rw [Packed.marks?]
  refine (congrArg (· >>= _) columns).trans ?_
  rfl

/-- Ones at the places of the marks leave zeros at those of all other edges and columns. -/
theorem markAll?_pack (shape : List Nat) (place : EdgeId → Nat → List Nat)
    (inside : ∀ {e c}, e.index < m.edgeCount → c < m.width →
      (Dense.offset shape (place e c) 0).isSome)
    (distinct : ∀ {e e' c c'}, place e c = place e' c' → e = e' ∧ c = c') :
    ∃ dense : Dense α shape,
      (m.pack.marks?.bind fun marks =>
        (Dense.zeros shape).markAll? (marks.map fun (e, c) => place e c)) = some dense ∧
      ∀ {e c}, e.index < m.edgeCount → c < m.width →
        dense.get? (place e c) = some (if m.marks e c then 1 else 0) := by
  let all := (List.range m.width).flatMap fun c => (m.column c).map (·, c)
  have marked {e : EdgeId} {c : Nat} : (e, c) ∈ all ↔ c < m.width ∧ e ∈ m.column c := by
    simp [all]
  have fits : ∀ p ∈ all.map (fun (e, c) => place e c), (Dense.offset shape p 0).isSome := by
    intro p mem
    obtain ⟨⟨e, c⟩, pair, rfl⟩ := List.mem_map.mp mem
    obtain ⟨hc, he⟩ := marked.mp pair
    exact inside ((valid.column c).2 e he) hc
  obtain ⟨dense, run, reads⟩ := (Dense.zeros shape : Dense α shape).markAll?_ok fits
  refine ⟨dense, by rw [marks?_pack valid marks, Option.bind_some]; exact run, ?_⟩
  intro e c he hc
  have among : place e c ∈ all.map (fun (e, c) => place e c) ↔ m.marks e c = true := by
    rw [List.mem_map, AssignmentMatrix.marks, List.contains_iff_mem]
    constructor
    · rintro ⟨⟨e', c'⟩, mem, same⟩
      obtain ⟨rfl, rfl⟩ := distinct same
      exact (marked.mp mem).2
    · exact fun mem => ⟨(e, c), marked.mpr ⟨hc, mem⟩, rfl⟩
  rw [reads, Dense.get?_zeros (inside he hc)]
  simp only [among]
  split <;> rfl

theorem toDense?_pack :
    ∃ dense, m.pack.toDense? = some dense ∧ ∀ {e : EdgeId} {c}, e.index < m.edgeCount →
      c < m.width → dense.get? [e.index, c] = some (if m.marks e c then 1 else 0 : α) := by
  refine markAll?_pack valid marks [m.edgeCount, m.width] (fun e c => [e.index, c]) ?_ ?_
  · intro e c he hc
    simp [Dense.offset, he, hc]
  · intro e e' c c' same
    simp only [List.cons.injEq, and_true] at same
    exact ⟨Id.index_injective same.1, same.2⟩

theorem toDensePairs?_pack :
    ∃ dense, m.pack.toDensePairs? = some dense ∧ ∀ {e : EdgeId} {i j}, e.index < m.edgeCount →
      i < m.clusterCount → j < m.clusterCount →
      dense.get? [e.index, i, j] =
        some (if m.marks e (i * m.clusterCount + j) then 1 else 0 : α) := by
  let z := m.clusterCount
  obtain ⟨dense, run, reads⟩ := markAll?_pack (α := α) valid marks [m.edgeCount, z, z]
    (fun e c =>
      [e.index, (OdPair.ofIndex z c).origin.index, (OdPair.ofIndex z c).destination.index])
    (by
      intro e c he hc
      obtain ⟨origin, destination⟩ := OdPair.ofIndex_within hc
      simp [Dense.offset, he, z, origin, destination])
    (by
      intro e e' c c' same
      simp only [List.cons.injEq, and_true] at same
      obtain ⟨edge, origin, destination⟩ := same
      -- both clusters of a pair tell its column
      refine ⟨Id.index_injective edge, ?_⟩
      rw [← OdPair.column_ofIndex z c, ← OdPair.column_ofIndex z c', OdPair.column, OdPair.column,
        origin, destination])
  refine ⟨dense, run, fun {e i j} he hi hj => ?_⟩
  have within : OdPair.Within ⟨⟨i⟩, ⟨j⟩⟩ z := ⟨hi, hj⟩
  have cell := reads he within.column_lt
  rwa [within.ofIndex_column] at cell

theorem pack_inj (valid' : other.Valid) (marks' : other.markCount < Id.limit) :
    m.pack = other.pack ↔ m = other := by
  refine ⟨fun same => ?_, congrArg pack⟩
  have edges : m.edgeCount = other.edgeCount := congrArg Packed.edgeCount same
  have clusters : m.clusterCount = other.clusterCount := congrArg Packed.clusterCount same
  refine valid.ext valid' edges clusters fun c hc e _ => ?_
  have hc' : c < other.width := by rwa [AssignmentMatrix.width, ← clusters]
  have column := column?_pack valid marks hc
  rw [same, column?_pack valid' marks' hc', Option.some_inj] at column
  rw [column]

end AssignmentMatrix

end RoadFlow
