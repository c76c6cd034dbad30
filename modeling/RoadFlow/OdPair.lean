import RoadFlow.Id

/-!
# Origin-destination pairs

The ordered pairs of clusters, numbered origin by origin: with `z` clusters the pair `(i, j)` is
column `i * z + j` of a matrix `z * z` wide.
-/

namespace RoadFlow

structure OdPair where
  origin : ClusterId
  destination : ClusterId
  deriving DecidableEq

namespace OdPair

def column (p : OdPair) (clusters : Nat) : Nat :=
  p.origin.index * clusters + p.destination.index

/-- The pair of a column; its clusters keep the low 32 bits of their numbers. -/
def ofColumn (column clusters : Nat) : OdPair :=
  ⟨Id.truncate (column / clusters), Id.truncate (column % clusters)⟩

/-- Pairs within one cluster, whose paths are empty. -/
def isDiagonal (p : OdPair) : Bool := p.origin == p.destination

def label (p : OdPair) : String := s!"{p.origin.index}->{p.destination.index}"

end OdPair

end RoadFlow
