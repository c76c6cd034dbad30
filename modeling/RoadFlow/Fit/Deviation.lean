import RoadFlow.Fit.Flows

/-!
# Deviation from the counts

How far flows are from meeting a target: the mean square and the mean absolute difference over all
hours of all sensors, and the gradient of the former. Edges without a sensor do not enter.
-/

namespace RoadFlow

/-- A sensor: the columns of the pairs that pass it, and its counts. -/
structure Sensor (α : Type) where
  columns : List Nat
  counts : Hourly α
  deriving DecidableEq

structure Deviation (α : Type) where
  /-- The mean square difference. -/
  loss : α
  /-- The mean absolute difference. -/
  mad : α
  deriving DecidableEq

namespace Sensor

variable {α : Type} [Scalar α]

/-- The sensors of a target in the order of their edges. -/
def all (m : AssignmentMatrix) (t : Target α) : List (Sensor α) :=
  let columns := m.columnsByEdge
  t.sensors.map fun e => ⟨columns.getD e.index [], t.countsOf e⟩

/-- For each pair the places of the sensors that it passes. -/
def passed (width : Nat) (sensors : List (Sensor α)) : Array (List Nat) :=
  let columns := (sensors.map (·.columns)).toArray
  Incidence.holders width columns.size fun place => columns.getD place []

/-- The flow that passes a sensor. -/
def prediction (pairs : Array (Hourly α)) (bias : Option (Hourly α)) (s : Sensor α) : Hourly α :=
  let sum := Grid.sumChosen pairs s.columns
  match bias with
  | some addend => Grid.addRows sum addend
  | none => sum

/-- What passes a sensor in excess of its counts. -/
def residual (pairs : Array (Hourly α)) (bias : Option (Hourly α)) (s : Sensor α) : Hourly α :=
  (s.prediction pairs bias).zipWith (· - ·) s.counts

end Sensor

namespace Deviation

variable {α β : Type} [Scalar α] [Scalar β] [Widens α β]

/-- The sum of a term over all hours of some rows, taken in the wider arithmetic. -/
def sumOver (term : α → β) (rows : List (Hourly α)) : β :=
  rows.foldl (fun sum row => row.toList.foldl (fun sum x => sum + term x) sum) 0

/-- The number of hours in some rows. -/
def cellCount (rows : List (Hourly α)) : β := Scalar.ofNat (rows.length * hoursPerDay)

def square (x : α) : β := Widens.widen x * Widens.widen x

/-- The deviation of some residuals. -/
def ofResiduals (rows : List (Hourly α)) : Deviation α where
  loss := Widens.narrow (sumOver square rows / cellCount rows)
  mad := Widens.narrow (sumOver (fun x => Widens.widen (Scalar.abs x)) rows / cellCount rows)

/-- The gradient of the loss at each sensor's flow. -/
def slopes (rows : List (Hourly α)) : Array (Hourly α) :=
  let scale : α := Widens.narrow (Scalar.ofNat 2 / cellCount rows)
  (rows.map fun row => row.map (· * scale)).toArray

/-- The gradient of the loss at the flows of a pair: the slopes of the sensors that it passes, added
up in the order of the sensors. -/
def pairGradient (slopes : Array (Hourly α)) (passed : List Nat) : Hourly α :=
  Grid.sumChosen slopes passed

/-- The gradient of the loss at the addend. -/
def biasGradient (slopes : Array (Hourly α)) : Hourly α :=
  slopes.foldl Grid.addRows (Grid.zeros hoursPerDay)

end Deviation

end RoadFlow
