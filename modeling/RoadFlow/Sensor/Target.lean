import RoadFlow.Fit.Fault
import RoadFlow.Matrix.Grid

/-!
# Sensor targets

The counts that a fit has to meet: a row of hours for every edge, and the edges on which the counts
were seen. The rows of other edges mean nothing.
-/

namespace RoadFlow

/-- A value for each hour of the day. -/
abbrev Hourly (α : Type) := Vector α hoursPerDay

/-- A count on an edge in an hour. -/
structure Observation (α : Type) where
  edge : EdgeId
  hour : Hour
  count : α
  deriving DecidableEq

structure Target (α : Type) where
  counts : Array (Hourly α)
  /-- In ascending order, each once. -/
  sensors : List EdgeId
  deriving DecidableEq

namespace Target

variable {α : Type} [Scalar α]

def edgeCount (t : Target α) : Nat := t.counts.size

/-- The counts of an edge, which are zero for an edge that the target does not have. -/
def countsOf (t : Target α) (e : EdgeId) : Hourly α :=
  t.counts.getD e.index (Grid.zeros hoursPerDay)

def count (t : Target α) (e : EdgeId) (h : Hour) : α := (t.countsOf e).get ⟨h.index, h.index_lt⟩

def isObserved (t : Target α) (e : EdgeId) : Bool := t.sensors.contains e

/-- The first hour of an edge whose count is not finite. -/
def badHour? (t : Target α) (e : EdgeId) : Option Nat :=
  (t.countsOf e).toList.findIdx? fun x => !Scalar.isFinite x

/-- The target itself, if its sensors are among the edges and have finite counts. -/
def check (t : Target α) : Except (FitFault α) (Target α) :=
  match t.sensors.find? fun e => t.edgeCount ≤ e.index with
  | some e => .error (.edgeOutOfRange e.index t.edgeCount)
  | none =>
    match t.sensors.findSome? fun e => (t.badHour? e).map (e, ·) with
    | some (e, hour) => .error (.notFinite e.index hour)
    | none => .ok t

/-- The target of some counts and the edges on which they were seen, in any order. -/
def ofGrid (counts : Grid α) (sensors : List EdgeId) : Except (FitFault α) (Target α) :=
  match counts.rowsOfWidth? hoursPerDay with
  | none => .error (.shape ⟨"target hours", hoursPerDay, counts.cols⟩)
  | some rows => check ⟨rows, Id.sortUnique sensors⟩

/-- Adds a count to those of its edge and hour. -/
def addObservation (counts : Array (Hourly α)) (o : Observation α) :
    Except (FitFault α) (Array (Hourly α)) :=
  if counts.size ≤ o.edge.index then .error (.edgeOutOfRange o.edge.index counts.size)
  else
    let ⟨h, _⟩ := o.hour
    .ok (counts.modify o.edge.index fun row => row.set h (row[h] + o.count))

/-- The target of single observations. Repeated ones add up, and hours without one count as zero. -/
def ofObservations (edgeCount : Nat) (observations : List (Observation α)) :
    Except (FitFault α) (Target α) := do
  let counts ← observations.foldlM addObservation
    (Array.replicate edgeCount (Grid.zeros hoursPerDay))
  check ⟨counts, Id.sortUnique (observations.map (·.edge))⟩

end Target

end RoadFlow
