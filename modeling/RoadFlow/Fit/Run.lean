import RoadFlow.Fit.Observer

/-!
# Runs

A run takes steps until the budget is used up or the observer asks it to stop.
-/

namespace RoadFlow

/-- A run under way: the fit, the observer's state, the last step's metrics and the records. -/
structure Run (α σ : Type) where
  fit : Fit α
  observer : σ
  last : Option (Metrics α)
  journal : Journal

namespace Run

variable {α β σ : Type} [Scalar α] [Scalar β] [Widens α β]

/-- The step is one that is logged. -/
def isLogged (c : FitSettings α) (step : Nat) : Bool := step % c.logInterval = 0

/-- The step is one at which the best flows are handed out. -/
def isCheckpoint (c : FitSettings α) (step : Nat) : Bool :=
  0 < c.saveInterval && 0 < step && step % c.saveInterval = 0

/-- What the observer is told of a step, in order. -/
def callsOf (a : Fit.Advance α) : List (Call α) :=
  let best := a.fit.best.toList
  let step := a.metrics.step
  [.step a.metrics] ++
    (if a.improved then best.map .newBest else []) ++
    (if isLogged a.fit.settings step then [.log a.metrics] else []) ++
    (if isCheckpoint a.fit.settings step then best.map (.checkpoint step) else [])

/-- Tells the observer one thing. -/
def tell (o : Observer α σ) (r : Run α σ) (call : Call α) : Run α σ :=
  let (observer, records) := o.receive r.observer call
  { r with observer, journal := r.journal ++ records }

/-- Takes a step and tells the observer of it. -/
def step (o : Observer α σ) (r : Run α σ) : Run α σ :=
  let a := r.fit.advance
  (callsOf a).foldl (tell o) { r with fit := a.fit, last := some a.metrics }

/-- The record of a run that was stopped before a step. -/
def cancelRecord (step : Nat) : LogRecord := ⟨.info, s!"fit cancelled at step {step}"⟩

/-- Takes up to so many steps. Says whether the observer stopped the run. -/
def steps (o : Observer α σ) : Nat → Run α σ → Run α σ × Bool
  | 0, r => (r, false)
  | n + 1, r =>
    match o.shouldStop r.observer with
    | (true, observer) =>
      ({ r with observer, journal := r.journal.push (cancelRecord r.fit.stepsTaken) }, true)
    | (false, observer) => steps o n (step o { r with observer })

/-- What a run from some number of steps on came to. -/
def summary (r : Run α σ) (first : Nat) (cancelled : Bool) : RunSummary α where
  stepsRun := r.fit.stepsTaken - first
  last := r.last
  bestStep := r.fit.best.map (·.step)
  bestLoss := r.fit.best.map (·.loss)
  cancelled := cancelled

end Run

/-- A run that is over. -/
structure Finished (α σ : Type) where
  fit : Fit α
  observer : σ
  summary : RunSummary α
  journal : Journal

variable {α β σ : Type} [Scalar α] [Scalar β] [Widens α β]

/-- Runs a fit until the steps of its settings are taken or the observer asks to stop. -/
def Fit.run (f : Fit α) (o : Observer α σ) (observer : σ) : Finished α σ :=
  let budget := f.settings.steps - f.stepsTaken
  let (r, cancelled) := Run.steps o budget ⟨f, observer, none, #[]⟩
  let summary := r.summary f.stepsTaken cancelled
  let r := r.tell o (.fitEnd summary r.fit.best)
  ⟨r.fit, r.observer, summary, r.journal⟩

/-- Takes so many steps without an observer. -/
def Fit.advanceMany : Nat → Fit α → Fit α × List (Metrics α)
  | 0, f => (f, [])
  | n + 1, f =>
    let a := f.advance
    let (f, metrics) := Fit.advanceMany n a.fit
    (f, a.metrics :: metrics)

/-- The best flows of a whole fit, what the run came to, the observer's last state and the records.
A fit that cannot start tells its observer nothing. -/
def Fit.startAndRun (m : AssignmentMatrix) (t : Target α) (c : FitSettings α) (o : Observer α σ)
    (observer : σ) : Except (FitFault α) (Flows α × Finished α σ) := do
  let f ← Fit.start m t c
  let finished := f.run o observer
  return (finished.fit.bestOrCurrent, finished)

end RoadFlow
