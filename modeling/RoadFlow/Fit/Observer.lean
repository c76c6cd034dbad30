import RoadFlow.Fit.State

/-!
# Observers of a fit

A run tells its observer what happens, call by call, and asks it before each step whether to stop.
An observer answers from a state of its own and may leave records.
-/

namespace RoadFlow

/-- What a run came to. -/
structure RunSummary (α : Type) where
  stepsRun : Nat
  /-- The metrics of the last step. -/
  last : Option (Metrics α)
  bestStep : Option Nat
  bestLoss : Option α
  /-- Whether the observer stopped the run. -/
  cancelled : Bool
  deriving DecidableEq

/-- What a run tells its observer. -/
inductive Call (α : Type) where
  /-- A step was taken. -/
  | step (metrics : Metrics α)
  /-- The step started from flows better than all before. -/
  | newBest (best : Flows α)
  /-- The step is one that is logged. -/
  | log (metrics : Metrics α)
  /-- The step is one at which the best flows are handed out. -/
  | checkpoint (step : Nat) (best : Flows α)
  /-- The run is over. -/
  | fitEnd (summary : RunSummary α) (best : Option (Flows α))

structure Observer (α σ : Type) where
  /-- Whether the run is to end before the next step. -/
  shouldStop : σ → Bool × σ := fun s => (false, s)
  receive : σ → Call α → σ × Journal := fun s _ => (s, #[])

namespace Observer

variable {α σ τ : Type}

/-- An observer that does nothing. -/
def silent : Observer α Unit := {}

/-- Two observers side by side. Both hear every call and are asked every time; either may stop the
run. -/
def pair (a : Observer α σ) (b : Observer α τ) : Observer α (σ × τ) where
  shouldStop := fun (s, t) =>
    let (stopA, s) := a.shouldStop s
    let (stopB, t) := b.shouldStop t
    (stopA || stopB, s, t)
  receive := fun (s, t) call =>
    let (s, first) := a.receive s call
    let (t, second) := b.receive t call
    ((s, t), first ++ second)

end Observer

/-! ## Limits -/

/-- The steps seen so far, and whether one of them had a loss below the threshold. -/
structure StopState where
  steps : Nat
  below : Bool
  deriving DecidableEq

/-- Stops after so many steps, or once a loss was below a threshold. -/
def Observer.stopping {α : Type} [Scalar α] (stopAfter : Option Nat) (stopBelow : Option α) :
    Observer α StopState where
  shouldStop s := (stopAfter.any (· ≤ s.steps) || s.below, s)
  receive s call :=
    match call with
    | .step m => (⟨s.steps + 1, s.below || stopBelow.any (Scalar.lt m.loss ·)⟩, #[])
    | _ => (s, #[])

/-! ## History -/

/-- What a run told, by kind of call. -/
structure History (α : Type) where
  steps : Array (Metrics α)
  logged : Array (Metrics α)
  /-- The steps that started from the best flows so far. -/
  improvedAt : Array Nat
  checkpoints : Array Nat
  summary : Option (RunSummary α)

namespace History

variable {α : Type}

def empty : History α := ⟨#[], #[], #[], #[], none⟩

def losses (h : History α) : Array α := h.steps.map (·.loss)

def add (h : History α) : Call α → History α
  | .step m => { h with steps := h.steps.push m }
  | .newBest best => { h with improvedAt := h.improvedAt.push best.step }
  | .log m => { h with logged := h.logged.push m }
  | .checkpoint step _ => { h with checkpoints := h.checkpoints.push step }
  | .fitEnd summary _ => { h with summary := some summary }

end History

/-- Keeps the history of a run. -/
def Observer.history {α : Type} : Observer α (History α) where
  receive h call := (h.add call, #[])

/-! ## Records -/

namespace FitRecords

def places (n : Nat) (x : Float32) : String := Decimal.Format.single.fixed n x.toBits.toNat

def loggedStep (m : Metrics Float32) : LogRecord :=
  ⟨.info, s!"step {Decimal.padLeft 6 (toString m.step)}: " ++
    s!"loss {places 6 m.loss}  mad {places 4 m.mad}"⟩

def newBest (best : Flows Float32) : LogRecord :=
  ⟨.debug, s!"new best loss {places 6 best.loss} at step {best.step}"⟩

def finished (summary : RunSummary Float32) (best : Option (Flows Float32)) : LogRecord :=
  match best with
  | some b => ⟨.info, s!"fit finished after {summary.stepsRun} steps: " ++
      s!"best loss {places 6 b.loss}, mad {places 4 b.mad} (step {b.step}), " ++
      s!"total flow {places 1 b.total}"⟩
  | none => ⟨.info, s!"fit finished after {summary.stepsRun} steps without a finite loss"⟩

/-- The records of a call. -/
def ofCall : Call Float32 → Journal
  | .log m => #[loggedStep m]
  | .newBest best => #[newBest best]
  | .fitEnd summary best => #[finished summary best]
  | _ => #[]

end FitRecords

/-- Records the progress of a run. -/
def Observer.logging : Observer Float32 Unit where
  receive _ call := ((), FitRecords.ofCall call)

end RoadFlow
