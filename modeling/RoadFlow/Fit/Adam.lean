import RoadFlow.Fit.Settings

/-!
# The optimiser

Adam: every parameter moves against the running mean of its gradient, in steps that shrink with the
running mean of the gradient's square. Both means start at zero and are corrected for that.
-/

namespace RoadFlow

/-- The running means of a parameter's gradient and of its square. -/
structure Moments (α : Type) where
  first : α
  second : α
  deriving DecidableEq

/-- What the corrections of one update come to: the size of the step, and the divisor of the root of
the second moment. -/
structure Correction (α : Type) where
  stepSize : α
  divisor : α
  deriving DecidableEq

/-- The optimiser of `size` parameters. -/
structure Adam (α : Type) (size : Nat) where
  settings : FitSettings α
  moments : Vector (Moments α) size
  /-- Updates made so far. -/
  updates : Nat

variable {α : Type} [Scalar α]

/-- `r * a ^ n` by repeated squaring. -/
def timesPower (r a : α) (n : Nat) : α :=
  let r := if n % 2 = 1 then r * a else r
  if n / 2 = 0 then r else timesPower r (a * a) (n / 2)
termination_by n

def power (a : α) (n : Nat) : α := timesPower 1 a n

namespace Moments

/-- The means with one more gradient. -/
def absorb (c : FitSettings α) (m : Moments α) (gradient : α) : Moments α where
  first := c.beta1 * m.first + (1 - c.beta1) * gradient
  second := c.beta2 * m.second + (1 - c.beta2) * gradient * gradient

/-- A parameter moved by its means. -/
def move (c : FitSettings α) (k : Correction α) (m : Moments α) (parameter : α) : α :=
  parameter - k.stepSize * m.first / (Scalar.sqrt m.second / k.divisor + c.epsilon)

end Moments

namespace Adam

/-- Corrections change no more after so many updates. -/
def correctedUpdates : Nat := twoTo 31 - 1

/-- The corrections of the update of a given number, the first of which is 1. -/
def correction (c : FitSettings α) (update : Nat) : Correction α :=
  let n := min update correctedUpdates
  ⟨c.learningRate / (1 - power c.beta1 n), Scalar.sqrt (1 - power c.beta2 n)⟩

def start (size : Nat) (c : FitSettings α) : Adam α size := ⟨c, .replicate size ⟨0, 0⟩, 0⟩

variable {size n k : Nat}

/-- The moments after an update. Those without a parameter or a gradient stay. -/
def absorb (a : Adam α size) (parameters : Vector α n) (gradients : Vector α k) :
    Vector (Moments α) size :=
  a.moments.mapIdx fun i m =>
    match parameters[i]?, gradients[i]? with
    | some _, some g => m.absorb a.settings g
    | _, _ => m

/-- Moves each parameter along its gradient. Parameters without a gradient or moments stay. -/
def step (a : Adam α size) (parameters : Vector α n) (gradients : Vector α k) :
    Vector α n × Adam α size :=
  let moments := a.absorb parameters gradients
  let correction := correction a.settings (a.updates + 1)
  let moved := parameters.mapIdx fun i p =>
    match moments[i]?, gradients[i]? with
    | some m, some _ => m.move a.settings correction p
    | _, _ => p
  (moved, { a with moments, updates := a.updates + 1 })

end Adam

end RoadFlow
