import RoadFlow.Id
import RoadFlow.Route.Cost

/-!
# Frontiers

The nodes that a search has reached but not settled, with the costs at which they were reached. A
queue gives out some least entry first; how it keeps the others is its own affair. The queue used is
a leftist heap.
-/

namespace RoadFlow

/-- A node reached at a cost. -/
structure Reached (α : Type) where
  cost : α
  node : NodeId
  deriving DecidableEq

/-- By cost, then by node. -/
def Reached.before {α : Type} [PathCost α] (a b : Reached α) : Bool :=
  PathCost.lt a.cost b.cost || (!PathCost.lt b.cost a.cost && a.node.precedes b.node)

/-- The operations of a priority queue that holds its entries in a `σ`. -/
structure Queue (κ σ : Type) where
  empty : σ
  push : κ → σ → σ
  popLeast? : σ → Option (κ × σ)

/-- A heap in which each left branch is at least as deep on its right spine as its sibling. -/
inductive Heap (κ : Type) where
  | leaf
  | node (depth : Nat) (least : κ) (left right : Heap κ)

namespace Heap

variable {κ : Type}

def depth : Heap κ → Nat
  | leaf => 0
  | node d _ _ _ => d

def size : Heap κ → Nat
  | leaf => 0
  | node _ _ l r => l.size + r.size + 1

/-- A heap of one entry above two heaps, the deeper one on the left. -/
def join (least : κ) (a b : Heap κ) : Heap κ :=
  if b.depth ≤ a.depth then node (b.depth + 1) least a b else node (a.depth + 1) least b a

def merge (before : κ → κ → Bool) : Heap κ → Heap κ → Heap κ
  | leaf, h => h
  | h, leaf => h
  | node d x l r, node e y m s =>
    if before y x then join y m (merge before (node d x l r) s)
    else join x l (merge before r (node e y m s))
termination_by a b => a.size + b.size
decreasing_by all_goals simp only [size]; omega

def push (before : κ → κ → Bool) (x : κ) (h : Heap κ) : Heap κ :=
  merge before (node 1 x leaf leaf) h

def popLeast? (before : κ → κ → Bool) : Heap κ → Option (κ × Heap κ)
  | leaf => none
  | node _ x l r => some (x, merge before l r)

/-- The priority queue that a heap makes under an order. -/
def queue (before : κ → κ → Bool) : Queue κ (Heap κ) :=
  ⟨leaf, push before, popLeast? before⟩

end Heap

end RoadFlow
