import RoadFlow.Proofs.Matrix.Packed

/-!
# One form for each matrix

Lists of edges make a matrix if there is one for each pair, with edges of the matrix, and an empty
one for pairs within a cluster. However the matrix is then read, it marks an edge for a pair if the
list of the pair has it. There is nothing more to a matrix: neither the order of a list nor repeats
in it are left, and matrices with the same entries are equal (`ofColumns_canonical`).
-/

namespace RoadFlow

/-- Clusters whose pairs can be counted in 64 bits can be numbered in 32. -/
theorem OdPair.le_limit {z : Nat} (words : z * z < 2 ^ 64) : z ≤ Id.limit := by
  refine Nat.le_of_not_lt fun many => ?_
  have square : Id.limit * Id.limit ≤ z * z :=
    Nat.mul_le_mul (Nat.le_of_lt many) (Nat.le_of_lt many)
  have limit : Id.limit * Id.limit = 2 ^ 64 := rfl
  omega

/-! ## Readings -/

/-- Whichever way a matrix is asked about an edge and two clusters, it says that the edge is marked
for them, or that it is not. -/
structure AssignmentMatrix.Tells (α : Type) [Scalar α] (m : AssignmentMatrix) (e i j : Nat)
    (marked : Prop) [Decidable marked] : Prop where
  entry : m.entry ⟨e⟩ ⟨⟨i⟩, ⟨j⟩⟩ = (if marked then 1 else 0 : α)
  pair : ⟨e⟩ ∈ m.edgesOf ⟨⟨i⟩, ⟨j⟩⟩ ↔ marked
  column : ⟨e⟩ ∈ m.column (i * m.clusterCount + j) ↔ marked
  dense : m.toDense.get? e (i * m.clusterCount + j) = some (if marked then 1 else 0 : α)
  densePairs : (m.toDensePairs ⟨e⟩).get? i j = some (if marked then 1 else 0 : α)

/-- The same of packed arrays, in which nothing is looked up out of range. -/
structure Packed.Tells (α : Type) [Scalar α] (p : Packed) (e i j : Nat) (marked : Prop)
    [Decidable marked] : Prop where
  entry : p.entry? ⟨e⟩ ⟨⟨i⟩, ⟨j⟩⟩ = some (if marked then 1 else 0 : α)
  pair : ∃ edges, p.edgesOf? ⟨⟨i⟩, ⟨j⟩⟩ = some edges ∧ (⟨e⟩ ∈ edges ↔ marked)
  column : ∃ edges, p.column? (i * p.clusterCount + j) = some edges ∧ Id.Ascending edges ∧
    (⟨e⟩ ∈ edges ↔ marked)
  dense : ∃ dense, p.toDense? = some dense ∧
    dense.get? [e, i * p.clusterCount + j] = some (if marked then 1 else 0 : α)
  densePairs : ∃ dense, p.toDensePairs? = some dense ∧
    dense.get? [e, i, j] = some (if marked then 1 else 0 : α)

namespace AssignmentMatrix

variable {α : Type} [Scalar α] {edgeCount clusters : Nat} {columns others : List (List EdgeId)}
  {m other : AssignmentMatrix} {e i j : Nat} {marked : Prop} [Decidable marked]

theorem tells (marks : m.marks ⟨e⟩ (i * m.clusterCount + j) = true ↔ marked)
    (he : e < m.edgeCount) (hi : i < m.clusterCount) (hj : j < m.clusterCount) :
    m.Tells α e i j marked := by
  have within : OdPair.Within ⟨⟨i⟩, ⟨j⟩⟩ m.clusterCount := ⟨hi, hj⟩
  have held : ⟨e⟩ ∈ m.column (i * m.clusterCount + j) ↔ marked := by
    rw [← marks, AssignmentMatrix.marks, List.contains_iff_mem]
  have dense := Grid.get?_ofFn
    (fun e c => if m.marks ⟨e⟩ c then 1 else 0 : Nat → Nat → α) he within.column_lt
  have densePairs := Grid.get?_ofFn
    (fun i j => if m.marks ⟨e⟩ (i * m.clusterCount + j) then 1 else 0 : Nat → Nat → α) hi hj
  simp only [OdPair.column, marks] at dense densePairs
  refine ⟨?_, held, held, dense, densePairs⟩
  simp only [entry, OdPair.column, marks]

theorem pack_tells (marked_iff : m.marks ⟨e⟩ (i * m.clusterCount + j) = true ↔ marked)
    (valid : m.Valid) (few : m.markCount < Id.limit)
    (he : e < m.edgeCount) (hi : i < m.clusterCount) (hj : j < m.clusterCount) :
    m.pack.Tells α e i j marked := by
  have within : OdPair.Within ⟨⟨i⟩, ⟨j⟩⟩ m.clusterCount := ⟨hi, hj⟩
  have told : m.Tells α e i j marked := tells marked_iff he hi hj
  have column := column?_pack valid few within.column_lt
  obtain ⟨dense, wrote, cells⟩ := toDense?_pack (α := α) valid few
  obtain ⟨densePairs, wrotePairs, cellsPairs⟩ := toDensePairs?_pack (α := α) valid few
  refine ⟨?_, ⟨_, column, told.pair⟩, ⟨_, column, (valid.column _).1, told.column⟩,
    ⟨dense, wrote, ?_⟩, ⟨densePairs, wrotePairs, ?_⟩⟩
  · rw [entry?_pack valid few within, told.entry]
  · have cell := @cells ⟨e⟩ _ he within.column_lt
    simp only [OdPair.column, marked_iff] at cell
    exact cell
  · have cell := @cellsPairs ⟨e⟩ _ _ he hi hj
    simp only [marked_iff] at cell
    exact cell

/-! ## Lists -/

/-- Checking sorts a list, so a list that is sorted already is checked just the same. -/
theorem checkColumn_sortUnique (edges : List EdgeId) (c : Nat) :
    checkColumn edgeCount clusters (Id.sortUnique edges) c =
      checkColumn edgeCount clusters edges c := by
  have again : Id.sortUnique (Id.sortUnique edges) = Id.sortUnique edges :=
    Id.sortUnique_of_ascending (Id.ascending_sortUnique edges)
  have empty : (Id.sortUnique edges).isEmpty = edges.isEmpty := by
    rw [Bool.eq_iff_iff, List.isEmpty_iff, List.isEmpty_iff, List.eq_nil_iff_forall_not_mem,
      List.eq_nil_iff_forall_not_mem]
    simp only [Id.mem_sortUnique]
  rw [checkColumn, checkColumn, again, empty]

theorem ofColumns_sortUnique (columns : List (List EdgeId)) :
    ofColumns edgeCount clusters (columns.map Id.sortUnique) =
      ofColumns edgeCount clusters columns := by
  have checked : ((columns.map Id.sortUnique).zipIdx.mapM fun x =>
      checkColumn edgeCount clusters x.1 x.2) =
        columns.zipIdx.mapM fun x => checkColumn edgeCount clusters x.1 x.2 := by
    rw [List.zipIdx_map, List.mapM_map]
    exact congrArg (fun check => columns.zipIdx.mapM check)
      (funext fun x => checkColumn_sortUnique x.1 x.2)
  rw [ofColumns, ofColumns, List.length_map]
  split
  · rfl
  split
  · rfl
  let finish (columns : List (List EdgeId)) : Except MatrixFault AssignmentMatrix :=
    .ok ⟨edgeCount, clusters, columns.toArray⟩
  exact congrArg (· >>= finish) checked

/-- Only the members of the lists matter. -/
theorem ofColumns_congr
    (same : List.Forall₂ (fun edges others => ∀ e, e ∈ edges ↔ e ∈ others) columns others) :
    ofColumns edgeCount clusters columns = ofColumns edgeCount clusters others := by
  have sorted : columns.map Id.sortUnique = others.map Id.sortUnique := by
    induction same with
    | nil => rfl
    | @cons edges others _ _ first _ ih =>
      have head : Id.sortUnique edges = Id.sortUnique others :=
        (Id.ascending_sortUnique edges).ext (Id.ascending_sortUnique others)
          fun e => by rw [Id.mem_sortUnique, Id.mem_sortUnique, first]
      rw [List.map_cons, List.map_cons, head, ih]
  rw [← ofColumns_sortUnique, sorted, ofColumns_sortUnique]

/-- The pairs within a cluster are known by their columns as by their clusters. -/
theorem acceptable_iff (positive : 0 < clusters) (words : columns.length < 2 ^ 64) :
    Acceptable edgeCount clusters columns ↔
      columns.length = clusters * clusters ∧
      (∀ i < clusters, columns[i * clusters + i]? = some []) ∧
      ∀ edges ∈ columns, ∀ e ∈ edges, e.index < edgeCount := by
  constructor
  · rintro ⟨-, width, diagonal, inside⟩
    refine ⟨width, fun i hi => ?_, fun edges mem => inside mem⟩
    have within : OdPair.Within ⟨⟨i⟩, ⟨i⟩⟩ clusters := ⟨hi, hi⟩
    have hc : i * clusters + i < clusters * clusters := within.column_lt
    obtain ⟨edges, place⟩ : ∃ edges, columns[i * clusters + i]? = some edges :=
      ⟨_, List.getElem?_eq_getElem (width ▸ hc)⟩
    rw [place, diagonal place]
    rw [OdPair.ofColumn_eq hc (OdPair.le_limit (width ▸ words)), OdPair.ofIndex_add hi]
    exact beq_self_eq_true _
  · rintro ⟨width, diagonal, inside⟩
    refine ⟨positive, width, fun {c edges} place same => ?_, fun mem => inside _ mem⟩
    have hc : c < clusters * clusters := width ▸ (List.getElem?_eq_some_iff.mp place).1
    rw [OdPair.ofColumn_eq hc (OdPair.le_limit (width ▸ words)), OdPair.isDiagonal, beq_iff_eq]
      at same
    have empty := diagonal _ (OdPair.ofIndex_within hc).1
    have column := OdPair.column_ofIndex clusters c
    rw [OdPair.column, ← same] at column
    rw [column, place] at empty
    exact Option.some.inj empty

theorem marks_ofColumns (h : ofColumns edgeCount clusters columns = .ok m) {c : Nat}
    {edges : List EdgeId} (place : columns[c]? = some edges) (e : EdgeId) :
    m.marks e c = true ↔ e ∈ edges := by
  obtain ⟨-, rfl⟩ := ofColumns_eq_ok.mp h
  rw [marks, List.contains_iff_mem, column_eq, List.toList_toArray, List.getElem?_map, place]
  exact Id.mem_sortUnique

/-! ## Matrices -/

/-- What is known of the matrix that some lists make. -/
structure Canonical (edgeCount clusters : Nat) (columns : List (List EdgeId)) : Prop where
  accepted : (∃ m, ofColumns edgeCount clusters columns = .ok m) ↔
    columns.length = clusters * clusters ∧
    (∀ i < clusters, columns[i * clusters + i]? = some []) ∧
    ∀ edges ∈ columns, ∀ e ∈ edges, e.index < edgeCount
  shape : ∀ {m}, ofColumns edgeCount clusters columns = .ok m →
    m.edgeCount = edgeCount ∧ m.clusterCount = clusters ∧ ∀ c, Id.Ascending (m.column c)
  told : ∀ {m e i j edges}, ofColumns edgeCount clusters columns = .ok m → e < edgeCount →
    i < clusters → j < clusters → columns[i * clusters + j]? = some edges →
    m.Tells Float32 e i j (⟨e⟩ ∈ edges) ∧
      (m.markCount < Id.limit → m.pack.Tells Float32 e i j (⟨e⟩ ∈ edges))
  packed : Packed.ofColumns edgeCount clusters columns =
    (ofColumns edgeCount clusters columns).map pack
  unique : ∀ {others m other}, ofColumns edgeCount clusters columns = .ok m →
    ofColumns edgeCount clusters others = .ok other →
    (m = other ↔ ∀ e i j : Nat, e < edgeCount → i < clusters → j < clusters →
      (m.entry ⟨e⟩ ⟨⟨i⟩, ⟨j⟩⟩ : Float32) = other.entry ⟨e⟩ ⟨⟨i⟩, ⟨j⟩⟩) ∧
    (m.markCount < Id.limit → other.markCount < Id.limit → (m.pack = other.pack ↔ m = other))
  unordered : ∀ {others},
    List.Forall₂ (fun edges others => ∀ e, e ∈ edges ↔ e ∈ others) columns others →
    ofColumns edgeCount clusters columns = ofColumns edgeCount clusters others
  rebuilt : ∀ {m}, ofColumns edgeCount clusters columns = .ok m →
    ofColumns m.edgeCount m.clusterCount ((List.range m.width).map m.column) = .ok m

/-- Matrices of one shape with the same entries are equal. -/
theorem eq_of_entries (h : ofColumns edgeCount clusters columns = .ok m)
    (h' : ofColumns edgeCount clusters others = .ok other)
    (same : ∀ e i j : Nat, e < edgeCount → i < clusters → j < clusters →
      (m.entry ⟨e⟩ ⟨⟨i⟩, ⟨j⟩⟩ : Float32) = other.entry ⟨e⟩ ⟨⟨i⟩, ⟨j⟩⟩) : m = other := by
  obtain ⟨edges, few⟩ := shape_of_ofColumns h
  obtain ⟨edges', few'⟩ := shape_of_ofColumns h'
  refine (valid_of_ofColumns h).ext (valid_of_ofColumns h') (edges.trans edges'.symm)
    (few.trans few'.symm) fun c hc e he => ?_
  rw [width, few] at hc
  obtain ⟨hi, hj⟩ := OdPair.ofIndex_within hc
  have equal := same e.index _ _ (edges ▸ he) hi hj
  have column : e ∈ m.edgesOf (OdPair.ofIndex clusters c) ↔
      e ∈ other.edgesOf (OdPair.ofIndex clusters c) := by
    rw [← entry_eq_one, ← entry_eq_one]
    exact Iff.of_eq (congrArg (· = 1) equal)
  rwa [edgesOf, edgesOf, few, few', OdPair.column_ofIndex] at column

/-- A matrix is made exactly if the lists suit it, says of each edge and pair what the lists say in
whichever way it is asked, and is told from any other of its shape by its entries alone. The lists
can be counted in 64 bits, since they are in memory. -/
theorem ofColumns_canonical (edgeCount : Nat) (positive : 0 < clusters)
    (words : columns.length < 2 ^ 64) : Canonical edgeCount clusters columns where
  accepted := by
    rw [← acceptable_iff positive words]
    simp [ofColumns_eq_ok]
  shape h := by
    obtain ⟨edges, few⟩ := shape_of_ofColumns h
    exact ⟨edges, few, fun c => ((valid_of_ofColumns h).column c).1⟩
  told h he hi hj place := by
    obtain ⟨rfl, rfl⟩ := shape_of_ofColumns h
    have marked := marks_ofColumns h place
    exact ⟨tells (marked _) he hi hj,
      fun few => pack_tells (marked _) (valid_of_ofColumns h) few he hi hj⟩
  packed := ofColumns_pack edgeCount clusters columns
  unique h h' := by
    refine ⟨⟨?_, eq_of_entries h h'⟩, fun few few' =>
      pack_inj (valid_of_ofColumns h) few (valid_of_ofColumns h') few'⟩
    rintro rfl _ _ _ _ _ _
    rfl
  unordered := ofColumns_congr
  rebuilt h := by
    rw [(valid_of_ofColumns h).columns_eq]
    exact ofColumns_columns (valid_of_ofColumns h)

/-- Lists out of order and with a repeat. -/
theorem ofColumns_canonical_sample :
    ∃ columns : List (List EdgeId), columns = [[], [⟨1⟩, ⟨0⟩, ⟨1⟩], [⟨2⟩, ⟨1⟩], []] ∧
      0 < 2 ∧ columns.length < 2 ^ 64 ∧ Canonical 3 2 columns ∧
      ofColumns 3 2 columns = .ok sample := by
  have canonical : Canonical 3 2 [[], [⟨1⟩, ⟨0⟩, ⟨1⟩], [⟨2⟩, ⟨1⟩], []] :=
    ofColumns_canonical 3 (by decide) (by decide)
  have same : List.Forall₂ (fun edges others => ∀ e : EdgeId, e ∈ edges ↔ e ∈ others)
      [[], [⟨1⟩, ⟨0⟩, ⟨1⟩], [⟨2⟩, ⟨1⟩], []] sample.columns.toList := by
    refine .cons (by simp) (.cons (fun e => ?_) (.cons (fun e => ?_) (.cons (by simp) .nil)))
    · simp only [List.mem_cons, List.not_mem_nil, or_false]
      tauto
    · simp only [List.mem_cons, List.not_mem_nil, or_false]
      tauto
  exact ⟨_, rfl, by decide, by decide, canonical,
    (canonical.unordered same).trans (ofColumns_columns sample_valid)⟩

end AssignmentMatrix

end RoadFlow
