import RoadFlow.Proofs.Fit.Steps

/-!
# What a run tells

Before each step a run asks its observer whether to stop. It tells of a step at once, of better
flows right after the step that found them, and then what is due on that step. At the end it tells
once what it came to (`run_told`).
-/

namespace RoadFlow

variable {α β σ : Type}

theorem Run.isLogged_iff (c : FitSettings α) (step : Nat) :
    Run.isLogged c step = true ↔ c.logInterval ∣ step := by
  rw [Run.isLogged, decide_eq_true_eq, Nat.dvd_iff_mod_eq_zero]

theorem Run.isCheckpoint_iff (c : FitSettings α) (step : Nat) :
    Run.isCheckpoint c step = true ↔
      0 < c.saveInterval ∧ 0 < step ∧ c.saveInterval ∣ step := by
  simp [Run.isCheckpoint, Nat.dvd_iff_mod_eq_zero, and_assoc]

variable [Scalar α] [Scalar β] [Widens α β]

/-- What a run tells of the step that a fit takes. -/
def Fit.stepCalls (f : Fit α) : List (Call α) :=
  let m := f.advance.metrics
  let c := f.settings
  [.step m] ++
    -- the flows that the step started from, before they were moved
    (if Scalar.isFinite m.loss = true ∧ ∀ best ∈ f.best, Scalar.lt m.loss best.loss = true
      then [.newBest f.current] else []) ++
    (if c.logInterval ∣ m.step then [.log m] else []) ++
    (if 0 < c.saveInterval ∧ 0 < m.step ∧ c.saveInterval ∣ m.step
      then f.advance.fit.best.toList.map (.checkpoint m.step) else [])

namespace Fit

theorem improves_iff (f : Fit α) (loss : α) :
    f.improves loss = true ↔
      Scalar.isFinite loss = true ∧ ∀ best ∈ f.best, Scalar.lt loss best.loss = true := by
  simp [improves, Option.all_eq_true]

theorem best_advance (f : Fit α) :
    f.advance.fit.best = if f.improves f.current.loss then some f.current else f.best := rfl

theorem callsOf_advance (f : Fit α) : Run.callsOf f.advance = f.stepCalls := by
  have better : (if f.advance.improved then f.advance.fit.best.toList.map Call.newBest else []) =
      if f.improves f.advance.metrics.loss then [.newBest f.current] else [] := by
    show (if f.improves f.current.loss then _ else _) = if f.improves f.current.loss then _ else _
    rw [best_advance]
    split <;> rfl
  have settings : f.advance.fit.settings = f.settings := rfl
  unfold Run.callsOf stepCalls
  simp only [better, settings, improves_iff, Run.isLogged_iff, Run.isCheckpoint_iff]

theorem last_advanceMany (k : Nat) (f : Fit α) :
    (f.advanceMany k).2.getLast? =
      if k = 0 then none else some (f.advanceMany (k - 1)).1.advance.metrics := by
  cases k with
  | zero => rfl
  | succ k =>
    rw [advanceMany_succ, List.getLast?_concat]
    rfl

theorem script_eq (k : Nat) (f : Fit α) :
    f.script k =
      (List.range k).flatMap fun i =>
        .asked false :: (f.advanceMany i).1.stepCalls.map .told := by
  induction k generalizing f with
  | zero => rfl
  | succ k ih =>
    rw [script, ih, List.range_succ_eq_map, List.flatMap_cons, List.flatMap_map, callsOf_advance]
    rfl

end Fit

/-- What passes between a run and its observer, and what the run comes to, when it takes `k` steps.
The fit after `i` of them is `(f.advanceMany i).1`. -/
structure Fit.Told (f : Fit α) (o : Observer α σ) (observer : σ) (k : Nat)
    (out : Finished α σ) : Prop where
  exchanges : f.exchanges o observer =
    ((List.range k).flatMap fun i =>
      .asked false :: (f.advanceMany i).1.stepCalls.map .told) ++
    (if out.summary.cancelled then [.asked true] else []) ++
    [.told (.fitEnd out.summary out.fit.best)]
  met : o.Meets observer (f.exchanges o observer) out.observer
  step : ∀ i, (f.advanceMany i).1.advance.metrics.step = f.stepsTaken + i
  fit : out.fit = (f.advanceMany k).1
  finished : out.summary.cancelled = false →
    f.stepsTaken + k = max f.stepsTaken f.settings.steps
  stopped : out.summary.cancelled = true → f.stepsTaken + k < f.settings.steps
  stepsRun : out.summary.stepsRun = k
  last : out.summary.last = if k = 0 then none else some (f.advanceMany (k - 1)).1.advance.metrics
  bestStep : out.summary.bestStep = out.fit.best.map (·.step)
  bestLoss : out.summary.bestLoss = out.fit.best.map (·.loss)

/-- Whatever its observer answers, a run asks it before each step, tells of the step what is due in
order, and tells once that it is over. -/
theorem run_told (f : Fit α) (o : Observer α σ) (observer : σ) :
    f.Told o observer (f.run o observer).summary.stepsRun (f.run o observer) := by
  obtain ⟨k, ran⟩ := f.exists_ran o observer
  have stepsRun : (f.run o observer).summary.stepsRun = k :=
    congrArg RunSummary.stepsRun ran.summary
  rw [stepsRun]
  refine ⟨?_, ?_, ?_, ran.fit, ?_, ?_, stepsRun, ?_, ?_, ?_⟩
  · rw [List.append_assoc, ← Fit.script_eq]
    exact ran.exchanges
  · rw [f.run_shown o.recorded_shows (observer, [])]
    exact f.run_keeps (o.recorded_keeps observer) .start
  · intro i
    exact Fit.stepsTaken_advanceMany i f
  · intro finished
    have count := ran.finished finished
    omega
  · intro stopped
    have count := ran.stopped stopped
    omega
  · exact (congrArg RunSummary.last ran.summary).trans (Fit.last_advanceMany k f)
  · exact congrArg RunSummary.bestStep ran.summary
  · exact congrArg RunSummary.bestLoss ran.summary

end RoadFlow
