import RoadFlow.Proofs.Matrix.Columns

/-!
# Sums by deposits

The sums of chosen rows can also be made row by row, each row being added at all the places that it
belongs to. With a check on every index this fails if a row or a place is missing, and otherwise
comes to the same sums, added up in the same order (`gather_eq`, `scatter_eq`). So a product with an
assignment matrix takes no index out of range (`timesChecked_eq`).
-/

namespace RoadFlow

/-- The places of the chosen ones of some numbered things, taken in order, are the chosen ones. -/
theorem foldl_places {ι γ : Type} (xs : List ι) (p : ι → Bool) (step : γ → ι → γ) (start : γ) :
    ((List.range xs.length).filter fun i => xs[i]?.any p).foldl
        (fun out i => xs[i]?.elim out (step out)) start =
      (xs.filter p).foldl step start := by
  induction xs generalizing start with
  | nil => rfl
  | cons x xs ih =>
    rw [List.length_cons, List.range_succ_eq_map, List.filter_cons, List.filter_map,
      List.filter_cons]
    simp only [List.getElem?_cons_zero, Option.any_some, Function.comp_def,
      List.getElem?_cons_succ]
    split
    · rw [List.foldl_cons, List.foldl_cons, List.foldl_map]
      exact ih _
    · rw [List.foldl_map]
      exact ih _

variable {α : Type} [Scalar α] {n : Nat}

namespace Grid

/-- The sum of the chosen ones of some rows, if all of them are there. -/
def gather (rows : Array (Vector α n)) (chosen : List Nat) : Option (Vector α n) :=
  chosen.foldlM (fun sum r => rows[r]?.map (addRows sum)) (zeros n)

/-- A row and the places that it is added at. -/
structure Deposit (α : Type) (n : Nat) where
  places : List Nat
  row : Vector α n

/-- The rows with one more added at its places, if all of these are there. -/
def deposit (rows : Array (Vector α n)) (d : Deposit α n) : Option (Array (Vector α n)) :=
  d.places.foldlM
    (fun rows k => if k < rows.size then some (rows.modify k (addRows · d.row)) else none) rows

def scatter (rows : Array (Vector α n)) (deposits : List (Deposit α n)) :
    Option (Array (Vector α n)) :=
  deposits.foldlM deposit rows

/-- What some deposits come to at a place. -/
def depositedAt (deposits : List (Deposit α n)) (start : Vector α n) (k : Nat) : Vector α n :=
  (deposits.filter (·.places.contains k)).foldl (fun sum d => addRows sum d.row) start

variable {rows : Array (Vector α n)} {chosen : List Nat} {f : Nat → Vector α n}

theorem sumChosen_eq (held : ∀ r ∈ chosen, rows[r]? = some (f r)) :
    sumChosen rows chosen = chosen.foldl (fun sum r => addRows sum (f r)) (zeros n) := by
  have entrywise (start : Vector α n) {c : Nat} (hc : c < n) :
      (chosen.foldl (fun sum r => addRows sum (f r)) start)[c] =
        chosen.foldl (fun sum r => sum + (f r)[c]) start[c] := by
    clear held
    induction chosen generalizing start with
    | nil => rfl
    | cons r chosen ih => rw [List.foldl_cons, ih, addRows, Vector.getElem_zipWith, List.foldl_cons]
  ext c hc
  rw [entrywise, sumChosen, Vector.getElem_ofFn, zeros, Vector.getElem_replicate]
  refine List.foldl_ext _ _ _ fun sum r mem => ?_
  obtain ⟨inside, found⟩ := Array.getElem?_eq_some_iff.mp (held r mem)
  rw [dif_pos inside, ← found]
  rfl

theorem gather_eq (inside : ∀ r ∈ chosen, r < rows.size) :
    gather rows chosen = some (sumChosen rows chosen) := by
  have held (r : Nat) (mem : r ∈ chosen) : rows[r]? = some (rows.getD r (zeros n)) := by
    simp [inside r mem]
  have sums (start : Vector α n) : chosen.foldlM (fun sum r => rows[r]?.map (addRows sum)) start =
      some (chosen.foldl (fun sum r => addRows sum (rows.getD r (zeros n))) start) := by
    clear inside
    induction chosen generalizing start with
    | nil => rfl
    | cons r chosen ih =>
      rw [List.foldlM_cons, held r List.mem_cons_self]
      exact ih (fun r mem => held r (List.mem_cons_of_mem _ mem)) _
  rw [gather, sums, sumChosen_eq held]

theorem deposit_eq {d : Deposit α n} (inside : ∀ k ∈ d.places, k < rows.size)
    (nodup : d.places.Nodup) :
    deposit rows d =
      some (rows.mapIdx fun k sum => if d.places.contains k then addRows sum d.row else sum) := by
  obtain ⟨places, row⟩ := d
  unfold deposit
  dsimp only at inside nodup ⊢
  induction places generalizing rows with
  | nil =>
    refine congrArg some (Array.ext_getElem? fun j => ?_)
    simp
  | cons k places ih =>
    obtain ⟨new, nodup⟩ := List.nodup_cons.mp nodup
    rw [List.foldlM_cons, if_pos (inside k List.mem_cons_self), Option.bind_eq_bind,
      Option.bind_some,
      ih (by simpa using fun k mem => inside k (List.mem_cons_of_mem _ mem)) nodup]
    refine congrArg some (Array.ext_getElem? fun j => ?_)
    rw [Array.getElem?_mapIdx, Array.getElem?_mapIdx, Array.getElem?_modify]
    by_cases same : k = j
    · subst same
      simp [new, Function.comp_def]
    · simp [same, Ne.symm same]

/-- The deposits at each place are added up in their order. -/
theorem scatter_eq {deposits : List (Deposit α n)}
    (inside : ∀ d ∈ deposits, ∀ k ∈ d.places, k < rows.size)
    (nodup : ∀ d ∈ deposits, d.places.Nodup) :
    scatter rows deposits = some (rows.mapIdx fun k start => depositedAt deposits start k) := by
  unfold scatter
  induction deposits generalizing rows with
  | nil =>
    refine congrArg some (Array.ext_getElem? fun j => ?_)
    simp [depositedAt]
  | cons d deposits ih =>
    rw [List.forall_mem_cons] at inside nodup
    rw [List.foldlM_cons, deposit_eq inside.1 nodup.1, Option.bind_eq_bind, Option.bind_some,
      ih (by simpa using inside.2) nodup.2]
    refine congrArg some (Array.ext_getElem? fun j => ?_)
    rw [Array.getElem?_mapIdx, Array.getElem?_mapIdx, Array.getElem?_mapIdx, Option.map_map]
    refine congrArg (Option.map · rows[j]?) (funext fun start => ?_)
    rw [Function.comp_apply, depositedAt, depositedAt, List.filter_cons]
    split <;> rfl

/-- Rows that are deposited at the places of their lists come, at a place, to the sum of those
whose lists hold it. -/
theorem depositedAt_zipWith {lists : List (List Nat)} (size : rows.size = lists.length) (k : Nat) :
    depositedAt (lists.zipWith Deposit.mk rows.toList) (zeros n) k =
      sumChosen rows
        ((List.range lists.length).filter fun i => (lists[i]?.getD []).contains k) := by
  let deposits := lists.zipWith Deposit.mk rows.toList
  have deposit {i : Nat} (hi : i < lists.length) :
      deposits[i]? = some ⟨lists[i], rows.getD i (zeros n)⟩ := by
    simp [deposits, hi, size]
  have chosen : (List.range lists.length).filter (fun i => (lists[i]?.getD []).contains k) =
      (List.range deposits.length).filter fun i => deposits[i]?.any (·.places.contains k) := by
    have length : deposits.length = lists.length := by simp [deposits, size]
    rw [length]
    refine List.filter_congr fun i mem => ?_
    have hi := List.mem_range.mp mem
    simp [deposit hi, hi]
  have inside (i : Nat) (mem : i ∈ (List.range lists.length).filter fun i =>
      (lists[i]?.getD []).contains k) : i < lists.length :=
    List.mem_range.mp (List.mem_filter.mp mem).1
  have held (i : Nat) (mem : i ∈ (List.range lists.length).filter fun i =>
      (lists[i]?.getD []).contains k) : rows[i]? = some (rows.getD i (zeros n)) := by
    simp [size, inside i mem]
  rw [sumChosen_eq held, depositedAt, ← foldl_places deposits, ← chosen]
  refine List.foldl_ext _ _ _ fun sum i mem => ?_
  rw [deposit (inside i mem)]
  rfl

omit [Scalar α] in
/-- A matrix by its rows. -/
theorem ofArray_eq {height : Nat} (size : rows.size = height)
    (held : ∀ r < height, rows[r]? = some (f r)) :
    (⟨rows.size, n, ⟨rows, rfl⟩⟩ : Grid α) = ofRows height n f := by
  subst size
  have same : (⟨rows, rfl⟩ : Vector (Vector α n) rows.size) = .ofFn fun r => f r := by
    refine Vector.ext fun r hr => ?_
    have found := held r hr
    rw [Array.getElem?_eq_getElem hr, Option.some_inj] at found
    rw [Vector.getElem_mk, Vector.getElem_ofFn, found]
  rw [ofRows, same]

end Grid

namespace AssignmentMatrix

variable {m : AssignmentMatrix} {row : Nat → Vector α n}

/-- What the pairs deposit at the edges that they mark. -/
def deposits (m : AssignmentMatrix) (row : Nat → Vector α n) : List (Grid.Deposit α n) :=
  (List.range m.width).map fun c => ⟨(m.column c).map (·.index), row c⟩

theorem depositedAt_deposits (e : EdgeId) :
    Grid.depositedAt (m.deposits row) (Grid.zeros n) e.index =
      (m.columnsOf e).foldl (fun sum c => Grid.addRows sum (row c)) (Grid.zeros n) := by
  rw [Grid.depositedAt, deposits, List.filter_map, List.foldl_map]
  simp only [Function.comp_def, contains_column]
  rfl

/-- The pairs deposit on the edges of a matrix, and on none of them twice. -/
theorem scatter_deposits (valid : m.Valid) {rows : Array (Vector α n)}
    (size : rows.size = m.edgeCount) :
    Grid.scatter rows (m.deposits row) =
      some (rows.mapIdx fun e start => Grid.depositedAt (m.deposits row) start e) := by
  apply Grid.scatter_eq
  · intro d mem e place
    obtain ⟨c, -, rfl⟩ := List.mem_map.mp mem
    obtain ⟨e, marked, rfl⟩ := List.mem_map.mp place
    rw [size]
    exact (valid.column c).2 e marked
  · intro d mem
    obtain ⟨c, -, rfl⟩ := List.mem_map.mp mem
    exact (valid.column c).1.nodup.map Id.index_injective

/-- `times` by deposits, with a check on every index. -/
def timesChecked (m : AssignmentMatrix) (flows : Grid α) :
    Option (Except MatrixFault (Grid α)) :=
  if flows.rows ≠ m.width then
    some (.error (.shape ⟨"flow matrix rows", m.width, flows.rows⟩))
  else do
    let deposits ← (List.range m.width).mapM fun c => do
      let edges ← m.columns[c]?
      let row ← flows.row[c]?
      some (Grid.Deposit.mk (edges.map (·.index)) row)
    let sums ← Grid.scatter (.replicate m.edgeCount (Grid.zeros flows.cols)) deposits
    some (.ok ⟨sums.size, flows.cols, ⟨sums, rfl⟩⟩)

theorem timesChecked_eq (valid : m.Valid) (flows : Grid α) :
    m.timesChecked flows = some (m.times flows) := by
  rw [timesChecked, times]
  split
  · rfl
  rename_i rows
  rw [not_not] at rows
  let row (c : Nat) : Vector α flows.cols := flows.row.toArray.getD c (Grid.zeros flows.cols)
  have rowAt {c : Nat} (hc : c < m.width) : flows.row.toArray[c]? = some (row c) := by
    have inside : c < flows.rows := by rwa [rows]
    simp [row, inside]
  have deposits : ((List.range m.width).mapM fun c => do
      let edges ← m.columns[c]?
      let row ← flows.row[c]?
      some (Grid.Deposit.mk (edges.map (·.index)) row)) = some (m.deposits row) := by
    refine mapM_eq_some fun c mem => ?_
    have hc := List.mem_range.mp mem
    have found : flows.row[c]? = some (row c) := by
      rw [← Vector.getElem?_toArray]
      exact rowAt hc
    simp [valid.getElem?_columns hc, found]
  rw [deposits, Option.bind_eq_bind, Option.bind_some,
    scatter_deposits valid Array.size_replicate]
  refine congrArg (some ∘ Except.ok) (Grid.ofArray_eq (by simp) fun e he => ?_)
  have columns : m.columnsByEdge[e]? = some (m.columnsOf ⟨e⟩) := getElem?_columnsByEdge he
  have held (c : Nat) (mem : c ∈ m.columnsOf ⟨e⟩) : flows.row.toArray[c]? = some (row c) :=
    rowAt (List.mem_range.mp (List.mem_filter.mp mem).1)
  have sum : Grid.depositedAt (m.deposits row) (Grid.zeros flows.cols) e =
      flows.sumRows (m.columnsOf ⟨e⟩) := by
    rw [Grid.sumRows, Grid.sumChosen_eq held]
    exact depositedAt_deposits ⟨e⟩
  simp [he, sum, columns]

/-- `transposeTimes` with a check on every index. -/
def transposeTimesChecked (m : AssignmentMatrix) (edges : Grid α) :
    Option (Except MatrixFault (Grid α)) :=
  if edges.rows ≠ m.edgeCount then
    some (.error (.shape ⟨"edge matrix rows", m.edgeCount, edges.rows⟩))
  else do
    let sums ← (List.range m.width).mapM fun c => do
      let marked ← m.columns[c]?
      Grid.gather edges.row.toArray (marked.map (·.index))
    some (.ok ⟨sums.toArray.size, edges.cols, ⟨sums.toArray, rfl⟩⟩)

theorem transposeTimesChecked_eq (valid : m.Valid) (edges : Grid α) :
    m.transposeTimesChecked edges = some (m.transposeTimes edges) := by
  rw [transposeTimesChecked, transposeTimes]
  split
  · rfl
  rename_i rows
  rw [not_not] at rows
  let sum (c : Nat) : Vector α edges.cols := edges.sumRows ((m.column c).map (·.index))
  have sums : ((List.range m.width).mapM fun c => do
      let marked ← m.columns[c]?
      Grid.gather edges.row.toArray (marked.map (·.index))) =
        some ((List.range m.width).map sum) := by
    refine mapM_eq_some fun c mem => ?_
    rw [valid.getElem?_columns (List.mem_range.mp mem), Option.bind_eq_bind, Option.bind_some]
    refine Grid.gather_eq fun r chosen => ?_
    obtain ⟨e, he, rfl⟩ := List.mem_map.mp chosen
    rw [Vector.size_toArray, rows]
    exact (valid.column c).2 e he
  rw [sums, Option.bind_eq_bind, Option.bind_some]
  exact congrArg (some ∘ Except.ok) (Grid.ofArray_eq (by simp) fun c hc => by simp [hc, sum])

end AssignmentMatrix

end RoadFlow
