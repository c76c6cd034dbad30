import RoadFlow.Fit.Adam
import RoadFlow.Fit.Deviation
import RoadFlow.Journal
import RoadFlow.Random.Range

/-!
# Fits

A fit looks for flows that meet a sensor target. Each step measures the flows it starts from, keeps
them if none were better, moves them down the gradient and cuts them off at zero.
-/

namespace RoadFlow

/-- The deviation that a step started from. -/
structure Metrics (α : Type) where
  step : Nat
  loss : α
  mad : α
  deriving DecidableEq

/-- Numbers under fit, one for each hour, with their optimiser. -/
structure FittedRow (α : Type) where
  values : Hourly α
  adam : Adam α hoursPerDay

structure Fit (α : Type) where
  matrix : AssignmentMatrix
  target : Target α
  settings : FitSettings α
  sensors : List (Sensor α)
  /-- For each pair the places of the sensors that it passes. -/
  passed : Array (List Nat)
  /-- The flows of each pair. -/
  pairs : Array (FittedRow α)
  bias : Option (FittedRow α)
  /-- Steps taken so far, those of a checkpoint included. -/
  stepsTaken : Nat
  /-- The flows of the least finite loss so far. -/
  best : Option (Flows α)

namespace FittedRow

variable {α : Type} [Scalar α]

def start (settings : FitSettings α) (values : Hourly α) : FittedRow α :=
  ⟨values, .start _ settings⟩

def move (row : FittedRow α) (gradient : Hourly α) : FittedRow α :=
  let (values, adam) := row.adam.step row.values gradient
  ⟨values, adam⟩

/-- The row with its negative values cut off. -/
def cut (row : FittedRow α) : FittedRow α :=
  { row with values := row.values.map Scalar.atLeastZero }

end FittedRow

namespace Fit

/-! ## Starting -/

section

variable {α : Type} [Scalar α]

/-- What keeps a fit from starting. -/
def inputFault? (m : AssignmentMatrix) (t : Target α) (c : FitSettings α) :
    Option (FitFault α) :=
  match c.fault? with
  | some fault => some (.settings fault)
  | none =>
    if t.edgeCount ≠ m.edgeCount then
      some (.shape ⟨"target edges vs TAM rows", m.edgeCount, t.edgeCount⟩)
    else if t.sensors.isEmpty then some .noSensors
    else none

/-- A number of 24 random bits in `0 ≤ x < 1`. -/
def unit (bits : Nat) : α := Scalar.ofNat bits / Scalar.ofNat (twoTo 24)

/-- The next numbers of a stream. -/
def unitDraws : Nat → Random.Stream → List α
  | 0, _ => []
  | n + 1, s =>
    let (bits, s) := s.next24
    unit bits :: unitDraws n s

/-- Random flows for so many pairs, drawn pair by pair and hour by hour. -/
def firstFlows (seed : UInt64) (width : Nat) : Array (Hourly α) :=
  let draws := (unitDraws (width * hoursPerDay) (.ofSeed seed)).toArray
  Array.ofFn fun c : Fin width =>
    Vector.ofFn fun h => draws.getD (c.val * hoursPerDay + h.val) 0

/-- The fit of some flows, with its optimisers at rest. -/
def ofParts (m : AssignmentMatrix) (t : Target α) (c : FitSettings α)
    (pairs : Array (Hourly α)) (bias : Option (Hourly α)) (stepsTaken : Nat)
    (best : Option (Flows α)) : Fit α :=
  let sensors := Sensor.all m t
  { matrix := m
    target := t
    settings := c
    sensors
    passed := Sensor.passed m.width sensors
    pairs := pairs.map (.start c)
    bias := bias.map (.start c)
    stepsTaken
    best }

/-- A fit of random flows, with a zero addend if there is to be one. -/
def start (m : AssignmentMatrix) (t : Target α) (c : FitSettings α) :
    Except (FitFault α) (Fit α) :=
  match inputFault? m t c with
  | some fault => .error fault
  | none =>
    let bias := if c.useBias then some (Grid.zeros hoursPerDay) else none
    .ok (ofParts m t c (firstFlows c.seed m.width) bias 0 none)

/-- An addend of one number for each hour. -/
def hourlyBias (bias : Array α) : Except (FitFault α) (Hourly α) :=
  if h : bias.size = hoursPerDay then .ok ⟨bias, h⟩
  else .error (.shape ⟨"checkpoint bias", hoursPerDay, bias.size⟩)

/-- The addend that a fit goes on with: a checkpoint's own, or zero if it has none. -/
def resumedBias (c : FitSettings α) (bias : Option (Array α)) :
    Except (FitFault α) (Option (Hourly α)) :=
  if !c.useBias then .ok none
  else match bias with
    | some bias => (hourlyBias bias).map some
    | none => .ok (some (Grid.zeros hoursPerDay))

/-- The flows of a checkpoint, of one row for each pair. -/
def resumedFlows (m : AssignmentMatrix) (checkpoint : Flows α) :
    Except (FitFault α) (Array (Hourly α)) :=
  let fault := FitFault.shape ⟨"checkpoint flow rows", m.width, checkpoint.pairs.rows⟩
  match checkpoint.pairs.rowsOfWidth? hoursPerDay with
  | none => .error fault
  | some rows =>
    if rows.size ≠ m.width then .error fault
    else .ok (rows.map fun row => row.map Scalar.atLeastZero)

/-- A fit that goes on from a checkpoint, which is its best until it finds better. -/
def resume (m : AssignmentMatrix) (t : Target α) (c : FitSettings α) (checkpoint : Flows α) :
    Except (FitFault α) (Fit α) :=
  match inputFault? m t c with
  | some fault => .error fault
  | none =>
    if checkpoint.clusterCount ≠ m.clusterCount then
      .error (.shape ⟨"checkpoint clusters", m.clusterCount, checkpoint.clusterCount⟩)
    else do
      let pairs ← resumedFlows m checkpoint
      let bias ← resumedBias c checkpoint.bias
      return ofParts m t c pairs bias checkpoint.step (some checkpoint)

/-- The record of a checkpoint's addend that is not used. -/
def resumeRecords (c : FitSettings α) (checkpoint : Flows α)
    (result : Except (FitFault α) (Fit α)) : Journal :=
  if result.isOk ∧ checkpoint.bias.isSome ∧ !c.useBias then
    #[⟨.debug, "checkpoint carries a bias but use_bias is off; dropping it"⟩]
  else #[]

/-! ## Parameters and snapshots -/

def flows (f : Fit α) : Array (Hourly α) := f.pairs.map (·.values)

def addend (f : Fit α) : Option (Hourly α) := f.bias.map (·.values)

/-- The flows as a matrix with a row for each pair. -/
def grid (f : Fit α) : Grid α := ⟨f.flows.size, hoursPerDay, ⟨f.flows, rfl⟩⟩

def snapshot (f : Fit α) (m : Metrics α) : Flows α where
  clusterCount := f.matrix.clusterCount
  pairs := f.grid
  bias := f.addend.map (·.toArray)
  loss := m.loss
  mad := m.mad
  step := m.step

/-- The flows on all edges. -/
def predict (f : Fit α) : Except (FitFault α) (Grid α) :=
  Flows.predictWith f.matrix f.grid (f.addend.map (·.toArray))

/-- What passes the sensors in excess of their counts. -/
def residuals (f : Fit α) : List (Hourly α) :=
  let pairs := f.flows
  let bias := f.addend
  f.sensors.map fun s => s.residual pairs bias

end

/-! ## Steps -/

variable {α β : Type} [Scalar α] [Scalar β] [Widens α β]

/-- The metrics that the residuals of the flows come to. -/
def metricsOf (f : Fit α) (residuals : List (Hourly α)) : Metrics α :=
  let d := Deviation.ofResiduals residuals
  ⟨f.stepsTaken, d.loss, d.mad⟩

/-- A snapshot of the flows as they are. -/
def current (f : Fit α) : Flows α := f.snapshot (f.metricsOf f.residuals)

/-- The best snapshot, or the flows as they are if no step has found one. -/
def bestOrCurrent (f : Fit α) : Flows α := f.best.getD f.current

/-- Whether a loss is finite and below the best so far. -/
def improves (f : Fit α) (loss : α) : Bool :=
  Scalar.isFinite loss && f.best.all fun best => Scalar.lt loss best.loss

/-- A step taken: the fit after it, the metrics of the flows before it, and whether those were
the best so far. -/
structure Advance (α : Type) where
  fit : Fit α
  metrics : Metrics α
  improved : Bool

def advance (f : Fit α) : Advance α :=
  let residuals := f.residuals
  let metrics := f.metricsOf residuals
  let improved := f.improves metrics.loss
  let slopes := Deviation.slopes residuals
  { fit := { f with
      pairs := f.pairs.mapIdx fun c row =>
        (row.move (Deviation.pairGradient slopes (f.passed.getD c []))).cut
      bias := f.bias.map fun row => row.move (Deviation.biasGradient slopes)
      stepsTaken := f.stepsTaken + 1
      best := if improved then some (f.snapshot metrics) else f.best }
    metrics
    improved }

end Fit

/-- The sensors that no pair passes; no flows can meet their counts. -/
def uncoveredSensors {α : Type} (m : AssignmentMatrix) (t : Target α) : List EdgeId :=
  let columns := m.columnsByEdge
  t.sensors.filter fun e => (columns.getD e.index []).isEmpty

end RoadFlow
