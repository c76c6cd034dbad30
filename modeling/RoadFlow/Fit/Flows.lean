import RoadFlow.Matrix.Product
import RoadFlow.Sensor.Target

/-!
# Fitted flows

A snapshot of a fit: the hourly flow of every pair of clusters and, if it has one, an addend for
each hour, with the deviation that they were measured at.
-/

namespace RoadFlow

structure Flows (α : Type) where
  clusterCount : Nat
  /-- A row for each pair, a column for each hour. -/
  pairs : Grid α
  bias : Option (Array α)
  loss : α
  mad : α
  /-- The step at which the deviation was measured. -/
  step : Nat

namespace Flows

variable {α : Type} [Scalar α]

def flow (f : Flows α) (pair : OdPair) (hour : Hour) : α :=
  f.pairs.get (pair.column f.clusterCount) hour.index

/-- The hourly flows from one cluster to another. -/
def hours (f : Flows α) (origin destination : Nat) : List α :=
  Hour.all.map fun h => f.pairs.get (origin * f.clusterCount + destination) h.index

/-- The sum of all flows. -/
def total (f : Flows α) : α := f.pairs.total

/-- A matrix with an addend for each column, or one for all of them. -/
def addToColumns (g : Grid α) (addends : Array α) : Grid α :=
  let addend (c : Nat) : α := addends.getD (if addends.size = 1 then 0 else c) 0
  ⟨g.rows, g.cols, g.row.map fun row => row.mapIdx fun c x => x + addend c⟩

/-- The edge flows of pair flows and an addend. -/
def predictWith (m : AssignmentMatrix) (pairs : Grid α) (bias : Option (Array α)) :
    Except (FitFault α) (Grid α) := do
  let edges ← (m.times pairs).mapError .matrix
  return match bias with
    | some addends => addToColumns edges addends
    | none => edges

def predict (f : Flows α) (m : AssignmentMatrix) : Except (FitFault α) (Grid α) :=
  predictWith m f.pairs f.bias

end Flows

end RoadFlow
