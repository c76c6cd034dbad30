import RoadFlow.Scalar

/-!
# Dense matrices

A matrix as a vector of rows of one width.
-/

namespace RoadFlow

structure Grid (α : Type) where
  rows : Nat
  cols : Nat
  row : Vector (Vector α cols) rows

namespace Grid

variable {α : Type}

def ofFn (rows cols : Nat) (f : Nat → Nat → α) : Grid α :=
  ⟨rows, cols, .ofFn fun r => .ofFn fun c => f r.val c.val⟩

/-- The matrix of some rows. -/
def ofRows (rows cols : Nat) (f : Nat → Vector α cols) : Grid α :=
  ⟨rows, cols, .ofFn fun r => f r.val⟩

def get? (g : Grid α) (r c : Nat) : Option α := g.row[r]?.bind fun row => row[c]?

theorem get?_ofFn {rows cols r c : Nat} (f : Nat → Nat → α) (hr : r < rows) (hc : c < cols) :
    (ofFn rows cols f).get? r c = some (f r c) := by
  have row : (Vector.ofFn fun r : Fin rows => Vector.ofFn fun c : Fin cols => f r c)[r]? =
      some (.ofFn fun c : Fin cols => f r c) := by
    rw [Vector.getElem?_eq_getElem hr, Vector.getElem_ofFn]
  have entry : (Vector.ofFn fun c : Fin cols => f r c)[c]? = some (f r c) := by
    rw [Vector.getElem?_eq_getElem hc, Vector.getElem_ofFn]
  exact (congrArg (·.bind fun row => row[c]?) row).trans entry

/-- The rows of a matrix that has the given width. -/
def rowsOfWidth? (g : Grid α) (width : Nat) : Option (Array (Vector α width)) :=
  if h : g.cols = width then some (h ▸ g.row.toArray) else none

/-- The entries row by row. -/
def entries (g : Grid α) : List α := g.row.toList.flatMap Vector.toList

/-- The entries row by row with their places. -/
def cells (g : Grid α) : List (Nat × Nat × α) :=
  g.row.toList.zipIdx.flatMap fun (row, r) => row.toList.zipIdx.map fun (x, c) => (r, c, x)

variable [Scalar α]

def zeros (cols : Nat) : Vector α cols := .replicate cols 0

def get (g : Grid α) (r c : Nat) : α := (g.get? r c).getD 0

/-- The sum of two rows, entry by entry. -/
def addRows {n : Nat} (x y : Vector α n) : Vector α n := x.zipWith (· + ·) y

/-- The sum of the chosen ones of some rows, added up in order from zero. A row that is not there
counts as zero. -/
def sumChosen {n : Nat} (rows : Array (Vector α n)) (chosen : List Nat) : Vector α n :=
  .ofFn fun c => chosen.foldl (fun sum r => sum + if h : r < rows.size then rows[r][c] else 0) 0

def sumRows (g : Grid α) (chosen : List Nat) : Vector α g.cols := sumChosen g.row.toArray chosen

/-- Every eighth entry of a whole number of blocks, from the `k`-th on, added up from zero. -/
def lane (xs : Array α) (blocks k : Nat) : α :=
  (List.range blocks).foldl (fun sum b => sum + xs[8 * b + k]?.getD 0) 0

/-- The sum of entries taken eight abreast: eight partial sums, joined in pairs four apart, then
the entries left over. -/
def sumEight (xs : Array α) : α :=
  let blocks := xs.size / 8
  let joined := (List.range 4).foldl
    (fun sum k => sum + (lane xs blocks k + lane xs blocks (k + 4))) 0
  (xs.toList.drop (8 * blocks)).foldl (fun sum x => sum + x) joined

/-- The sum of all entries. -/
def total (g : Grid α) : α := sumEight g.entries.toArray

end Grid

end RoadFlow
