import RoadFlow.Cache.Archive
import RoadFlow.Proofs.Cache.Bytes
import RoadFlow.Proofs.Matrix.Columns

/-!
# Reading back stored matrices

A valid matrix that fits the fields of an archive is read back under the key it was written for
(`read_write`), and under no other (`read_write_other`). A part of its bytes is no archive
(`read_write_part`).
-/

namespace RoadFlow

theorem Policy.tag_inj {p q : Policy} : p.tag = q.tag ↔ p = q := by
  cases p <;> cases q <;> simp [tag]

namespace Cache

namespace Archive

/-! ## Fields -/

/-- Every field has room for what it holds. -/
structure Fits (a : Archive) : Prop where
  magic : a.magic.length = 8
  version : a.version < 256 ^ 4
  network : (Text.Utf8.encode a.network).length < 256 ^ 8
  fingerprint : a.fingerprint < 256 ^ 8
  edgeCount : a.edgeCount < 256 ^ 8
  clusterCount : a.clusterCount < 256 ^ 8
  policy : a.policy < 256 ^ 1
  starts : a.colStart.length < 256 ^ 8
  start : ∀ w ∈ a.colStart, w < 256 ^ 4
  marks : a.rows.length < 256 ^ 8
  mark : ∀ w ∈ a.rows, w < 256 ^ 4

theorem reads_decode {a : Archive} (fits : a.Fits) : Reads decode a.encode fun _ => a := by
  have fields : a.encode = a.magic ++ (putNatural 4 a.version ++ (putText a.network ++
      (putNatural 8 a.fingerprint ++ (putNatural 8 a.edgeCount ++ (putNatural 8 a.clusterCount ++
        (putNatural 1 a.policy ++ (putWords a.colStart ++ (putWords a.rows ++ [])))))))) := by
    simp only [encode, List.append_assoc, List.append_nil]
  rw [fields]
  delta decode
  refine (reads_bytes fits.magic).bind ?_
  refine (reads_natural fits.version).bind ?_
  refine (reads_text fits.network).bind ?_
  refine (reads_natural fits.fingerprint).bind ?_
  refine (reads_natural fits.edgeCount).bind ?_
  refine (reads_natural fits.clusterCount).bind ?_
  refine (reads_natural fits.policy).bind ?_
  refine (reads_words fits.starts fits.start).bind ?_
  refine (reads_words fits.marks fits.mark).bind ?_
  exact Reads.done a

/-! ## Columns -/

variable {columns : List (List EdgeId)} {start : Nat}

theorem length_startsOf : (startsOf start columns).length = columns.length + 1 := by
  induction columns generalizing start with
  | nil => rfl
  | cons column columns ih => simp [startsOf, ih]

theorem head?_startsOf : (startsOf start columns).head? = some start := by
  cases columns <;> rfl

theorem getLast?_startsOf :
    (startsOf start columns).getLast? = some (start + columns.flatten.length) := by
  induction columns generalizing start with
  | nil => rfl
  | cons column columns ih =>
    have some : startsOf (start + column.length) columns ≠ [] := by
      apply List.ne_nil_of_length_pos
      rw [length_startsOf]
      omega
    rw [startsOf, List.getLast?_cons_of_ne_nil some, ih, List.flatten_cons, List.length_append,
      Nat.add_assoc]

theorem le_of_mem_startsOf {w : Nat} (h : w ∈ startsOf start columns) :
    w ≤ start + columns.flatten.length := by
  induction columns generalizing start with
  | nil =>
    rw [List.mem_singleton.mp h]
    exact Nat.le_add_right start _
  | cons column columns ih =>
    rw [List.flatten_cons, List.length_append]
    rcases List.mem_cons.mp h with rfl | later
    · exact Nat.le_add_right w _
    · have := ih later
      omega

/-- The starts of the columns after one, the first of them in sight. -/
theorem startsOf_cons (column : List EdgeId) :
    ∃ rest, startsOf start (column :: columns) = start :: (start + column.length) :: rest ∧
      startsOf (start + column.length) columns = (start + column.length) :: rest := by
  cases columns with
  | nil => exact ⟨[], rfl, rfl⟩
  | cons next columns => exact ⟨_, rfl, rfl⟩

theorem ascending_startsOf : ascending (startsOf start columns) = true := by
  induction columns generalizing start with
  | nil => rfl
  | cons column columns ih =>
    obtain ⟨rest, both, later⟩ := @startsOf_cons columns start column
    have tail := @ih (start + column.length)
    rw [later] at tail
    rw [both, ascending, tail]
    simp

theorem slices_startsOf :
    slices (columns.flatMap fun column => column.map (·.index)) (startsOf start columns) =
      columns := by
  induction columns generalizing start with
  | nil => rfl
  | cons column columns ih =>
    obtain ⟨rest, both, later⟩ := @startsOf_cons columns start column
    have tail := @ih (start + column.length)
    have size : start + column.length - start = (column.map (·.index)).length := by simp
    rw [later] at tail
    rw [both, slices, List.flatMap_cons, size, List.take_left, List.drop_left, tail, List.map_map]
    exact congrArg (· :: columns) (List.map_id column)

theorem length_rows : (columns.flatMap fun column => column.map (·.index)).length =
    columns.flatten.length := by
  rw [List.length_flatMap, List.length_flatten]
  simp

/-! ## Matrices -/

/-- The numbers of a matrix are machine words: identifiers and places among the entries have 32
bits, sizes and the number of pairs 64, and so has the length of the name it is stored under. -/
structure Storable (network : String) (m : AssignmentMatrix) : Prop where
  name : (Text.Utf8.encode network).length < 256 ^ 8
  edges : m.edgeCount < 256 ^ 8
  ids : ∀ {column e}, column ∈ m.columns.toList → e ∈ column → e.index < Id.limit
  clusters : m.clusterCount < Id.limit
  marks : m.markCount < Id.limit

variable {key held : Key} {m : AssignmentMatrix}

theorem fits_ofMatrix (valid : m.Valid) (edges : m.edgeCount = key.edgeCount)
    (clusters : m.clusterCount = key.clusterCount) (storable : Storable key.network m) :
    (ofMatrix key m).Fits := by
  have limit : Id.limit = 4294967296 := rfl
  obtain ⟨name, edgeLimit, ids, clusterLimit, marks⟩ := storable
  rw [limit] at clusterLimit marks
  have width : m.columns.toList.length + 1 < 256 ^ 8 := by
    have below : m.clusterCount ≤ 4294967295 := Nat.le_of_lt_succ clusterLimit
    have square := Nat.mul_le_mul below below
    rw [Array.length_toList, valid.width, AssignmentMatrix.width]
    omega
  constructor
  · show magicBytes.length = 8
    decide
  · show currentVersion < 256 ^ 4
    decide
  · exact name
  · exact key.fingerprint.toNat_lt
  · show key.edgeCount < 256 ^ 8
    omega
  · show key.clusterCount < 256 ^ 8
    omega
  · show key.policy.tag < 256 ^ 1
    cases key.policy <;> decide
  · rw [ofMatrix, length_startsOf]
    exact width
  · intro w hw
    have := le_of_mem_startsOf hw
    rw [AssignmentMatrix.markCount] at marks
    omega
  · rw [AssignmentMatrix.markCount] at marks
    rw [ofMatrix, length_rows]
    omega
  · intro w hw
    obtain ⟨column, mem, marked⟩ := List.mem_flatMap.mp hw
    obtain ⟨e, he, rfl⟩ := List.mem_map.mp marked
    exact ids mem he

/-- Bytes that end within an archive hold none. -/
theorem decode_part (valid : m.Valid) (edges : m.edgeCount = key.edgeCount)
    (clusters : m.clusterCount = key.clusterCount) (storable : Storable key.network m)
    {front : Bytes} (part : front <+: (ofMatrix key m).encode)
    (short : front ≠ (ofMatrix key m).encode) : ∃ fault, decode front = .error fault :=
  (reads_decode (fits_ofMatrix valid edges clusters storable)).part part short

theorem decode_ofMatrix (valid : m.Valid) (edges : m.edgeCount = key.edgeCount)
    (clusters : m.clusterCount = key.clusterCount) (storable : Storable key.network m) :
    decode (ofMatrix key m).encode = .ok (ofMatrix key m) := by
  have decoded := (reads_decode (fits_ofMatrix valid edges clusters storable)).whole []
  rwa [List.append_nil] at decoded

/-- A header agrees with its own key only. -/
theorem mismatch?_ofMatrix : (ofMatrix held m).mismatch? key = none ↔ held = key := by
  rcases key with ⟨name, fingerprint, edges, clusters, policy⟩
  rcases held with ⟨name', fingerprint', edges', clusters', policy'⟩
  simp only [mismatch?, ofMatrix, ne_eq, not_true_eq_false, if_false, UInt64.toNat_inj,
    Policy.tag_inj, Key.mk.injEq]
  grind

/-- The columns of a valid matrix are cut out of its entries again. -/
theorem toMatrix_ofMatrix (valid : m.Valid) (edges : m.edgeCount = key.edgeCount)
    (clusters : m.clusterCount = key.clusterCount) : (ofMatrix held m).toMatrix key = .ok m := by
  have width : ¬ (ofMatrix held m).colStart.length ≠ key.clusterCount * key.clusterCount + 1 := by
    show ¬ (startsOf 0 m.columns.toList).length ≠ key.clusterCount * key.clusterCount + 1
    rw [length_startsOf, Array.length_toList, valid.width, AssignmentMatrix.width, clusters]
    exact not_not.mpr rfl
  have placed : ¬ ((ofMatrix held m).colStart.head? ≠ some 0 ∨
      (ofMatrix held m).colStart.getLast? ≠ some (ofMatrix held m).rows.length ∨
      (!ascending (ofMatrix held m).colStart) = true) := by
    simp only [ofMatrix, head?_startsOf, getLast?_startsOf, ascending_startsOf, length_rows]
    simp
  unfold toMatrix
  dsimp only
  rw [if_neg width, if_neg placed]
  simp only [ofMatrix, slices_startsOf, ← edges, ← clusters]
  exact AssignmentMatrix.ofColumns_columns valid

end Archive

/-! ## Bytes -/

variable {key held : Key} {m : AssignmentMatrix} {bytes : Bytes}

theorem write_eq_ok :
    write key m = .ok bytes ↔
      (m.edgeCount = key.edgeCount ∧ m.clusterCount = key.clusterCount) ∧
        (Archive.ofMatrix key m).encode = bytes := by
  rw [write]
  split
  · rename_i other
    simp only [reduceCtorEq, false_iff]
    tauto
  · rename_i same
    rw [not_or, not_not, not_not] at same
    simp [same]

/-- The matrix is read back under the key that it was written for. -/
theorem read_write (h : write key m = .ok bytes) (valid : m.Valid)
    (storable : Archive.Storable key.network m) : read key bytes = .ok m := by
  obtain ⟨⟨edges, clusters⟩, rfl⟩ := write_eq_ok.mp h
  have decoded := Archive.decode_ofMatrix valid edges clusters storable
  have agrees := Archive.mismatch?_ofMatrix (m := m).mpr (rfl : key = key)
  rw [read, decoded]
  simp only [Except.mapError, bind, Except.bind, agrees]
  exact Archive.toMatrix_ofMatrix valid edges clusters

/-- Under any other key, what is stored is stale. -/
theorem read_write_other (h : write held m = .ok bytes) (valid : m.Valid)
    (storable : Archive.Storable held.network m) (other : held ≠ key) :
    ∃ reason, read key bytes = .error (.stale reason) := by
  obtain ⟨⟨edges, clusters⟩, rfl⟩ := write_eq_ok.mp h
  have decoded := Archive.decode_ofMatrix valid edges clusters storable
  rw [read, decoded]
  cases differs : (Archive.ofMatrix held m).mismatch? key with
  | none => exact absurd (Archive.mismatch?_ofMatrix.mp differs) other
  | some reason =>
    refine ⟨reason, ?_⟩
    simp only [Except.mapError, bind, Except.bind, differs]

/-- No key can use a part of what is stored. -/
theorem read_write_part (h : write held m = .ok bytes) (valid : m.Valid)
    (storable : Archive.Storable held.network m) {front : Bytes} (part : front <+: bytes)
    (short : front ≠ bytes) : ∃ fault, read key front = .error (.encoding fault) := by
  obtain ⟨⟨edges, clusters⟩, rfl⟩ := write_eq_ok.mp h
  obtain ⟨fault, failed⟩ := Archive.decode_part valid edges clusters storable part short
  exact ⟨fault, by rw [read, failed]; rfl⟩

end Cache

end RoadFlow
