import RoadFlow.Decimal.Layout
import RoadFlow.Scalar

/-!
# Settings of a fit
-/

namespace RoadFlow

structure FitSettings (α : Type) where
  /-- Steps in all; those of a checkpoint count. -/
  steps : Nat
  learningRate : α
  beta1 : α
  beta2 : α
  epsilon : α
  /-- Metrics are logged on steps that are multiples of this. -/
  logInterval : Nat
  /-- Checkpoints are handed out on positive multiples of this; zero turns them off. -/
  saveInterval : Nat
  /-- Whether an addend for each hour is fitted beside the flows. -/
  useBias : Bool
  /-- The seed of the first flows. -/
  seed : UInt64
  deriving DecidableEq

/-- A setting out of its range. -/
inductive SettingsFault (α : Type) where
  | learningRate (got : α)
  | beta (name : String) (got : α)
  | epsilon (got : α)
  | logInterval
  deriving DecidableEq

def singleText (x : Float32) : String := Decimal.Format.single.plain x.toBits.toNat

def SettingsFault.message : SettingsFault Float32 → String
  | .learningRate got => s!"learning_rate must be positive and finite, got {singleText got}"
  | .beta name got => s!"{name} must lie in [0, 1), got {singleText got}"
  | .epsilon got => s!"epsilon must be positive, got {singleText got}"
  | .logInterval => "log_interval must be at least 1"

namespace FitSettings

variable {α : Type} [Scalar α]

def isPositive (x : α) : Bool := Scalar.isFinite x && Scalar.lt 0 x

/-- At least zero and below one. -/
def isDecay (x : α) : Bool := !Scalar.lt x 0 && Scalar.lt x 1

/-- The first setting out of its range, if there is one. -/
def fault? (c : FitSettings α) : Option (SettingsFault α) :=
  if !isPositive c.learningRate then some (.learningRate c.learningRate)
  else if !isDecay c.beta1 then some (.beta "beta1" c.beta1)
  else if !isDecay c.beta2 then some (.beta "beta2" c.beta2)
  else if !isPositive c.epsilon then some (.epsilon c.epsilon)
  else if c.logInterval = 0 then some .logInterval
  else none

/-- The settings of a fit that asks for nothing else. -/
def standard : FitSettings Float32 where
  steps := 1000
  learningRate := 0.001
  beta1 := 0.9
  beta2 := 0.999
  epsilon := 1e-8
  logInterval := 100
  saveInterval := 0
  useBias := false
  seed := 42

end FitSettings

end RoadFlow
