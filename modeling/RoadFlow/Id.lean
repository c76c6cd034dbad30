import RoadFlow.Power

/-!
# Identifiers

Nodes, edges and clusters are numbered densely from zero. An identifier is such a number together
with what it numbers, so that a node is never looked up among the edges.
-/

namespace RoadFlow

inductive Entity where
  | node
  | edge
  | cluster
  deriving DecidableEq

def Entity.idName : Entity → String
  | .node => "NodeId"
  | .edge => "EdgeId"
  | .cluster => "ClusterId"

structure Id (e : Entity) where
  index : Nat
  deriving DecidableEq

abbrev NodeId := Id .node

abbrev EdgeId := Id .edge

abbrev ClusterId := Id .cluster

namespace Id

variable {e : Entity}

/-- Identifiers fill 32 bits. -/
def limit : Nat := twoTo 32

/-- The largest identifier stands for "none". -/
def invalid : Id e := ⟨limit - 1⟩

def isValid (id : Id e) : Bool := id != invalid

def ofNat? (n : Nat) : Option (Id e) := if n < limit then some ⟨n⟩ else none

/-- The identifier in the low 32 bits of a number. -/
def truncate (n : Nat) : Id e := ⟨n % limit⟩

def label (id : Id e) : String := s!"{e.idName}({id.index})"

/-- Some identifiers in ascending order, each once. -/
def sortUnique (ids : List (Id e)) : List (Id e) :=
  (ids.mergeSort fun a b => a.index ≤ b.index).eraseReps

end Id

/-- Whether the first identifier was given out before the second. -/
def Id.precedes {e : Entity} (a b : Id e) : Bool := a.index < b.index

end RoadFlow
