/-!
# Path costs

What a search needs of the costs that it adds up along a path: a start, a sum, an order, and a cost
above all others that marks what no path has reached.
-/

namespace RoadFlow

/-- `0` is the cost of an empty path, `1` that of one edge when edges are counted. -/
class PathCost (α : Type) extends Zero α, One α, Add α where
  lt : α → α → Bool
  unreached : α

namespace PathCost

variable {α : Type} [PathCost α]

/-- Whether a path has been found: its cost lies below the mark. -/
def isFinite (x : α) : Bool := lt x unreached

/-- Neither of two costs lies below the other. -/
def same (x y : α) : Bool := !lt x y && !lt y x

end PathCost

/-- Lengths are added up in 64 bits, and a sum beyond their range is no length. -/
instance : PathCost Float where
  zero := 0
  one := 1
  add x y := x + y
  lt x y := x < y
  unreached := Float.ofBits 0x7ff0000000000000

end RoadFlow
