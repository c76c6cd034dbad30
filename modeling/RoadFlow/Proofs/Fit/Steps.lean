import RoadFlow.Proofs.Fit.Observers

/-!
# Steps taken one by one and in runs

A run takes steps like any others, as many as its observer lets it, and tells the observer of each
(`Run.steps_recorded`, `Fit.run_eq`). So a fit that was driven by steps and runs in any order is one
after a number of steps (`Driven.advanceMany_eq`).
-/

namespace RoadFlow

variable {α β σ : Type} [Scalar α] [Scalar β] [Widens α β]

namespace Fit

/-- Steps and then more steps. -/
theorem advanceMany_add (n k : Nat) (f : Fit α) :
    f.advanceMany (n + k) =
      (((f.advanceMany n).1.advanceMany k).1,
        (f.advanceMany n).2 ++ ((f.advanceMany n).1.advanceMany k).2) := by
  induction n generalizing f with
  | zero => simp [advanceMany]
  | succ n ih =>
    rw [Nat.add_right_comm, advanceMany, ih]
    rfl

theorem advanceMany_succ (n : Nat) (f : Fit α) :
    f.advanceMany (n + 1) =
      ((f.advanceMany n).1.advance.fit,
        (f.advanceMany n).2 ++ [(f.advanceMany n).1.advance.metrics]) :=
  advanceMany_add n 1 f

@[simp] theorem length_advanceMany (n : Nat) (f : Fit α) : (f.advanceMany n).2.length = n := by
  induction n generalizing f with
  | zero => rfl
  | succ n ih => rw [advanceMany, List.length_cons, ih]

@[simp] theorem settings_advanceMany (n : Nat) (f : Fit α) :
    (f.advanceMany n).1.settings = f.settings := by
  induction n generalizing f with
  | zero => rfl
  | succ n ih => exact ih f.advance.fit

@[simp] theorem stepsTaken_advanceMany (n : Nat) (f : Fit α) :
    (f.advanceMany n).1.stepsTaken = f.stepsTaken + n := by
  induction n generalizing f with
  | zero => rfl
  | succ n ih =>
    rw [advanceMany, ih f.advance.fit, advance, Nat.add_assoc, Nat.add_comm 1]

/-- What passes in so many steps that are not stopped. -/
def script : Nat → Fit α → List (Exchange α)
  | 0, _ => []
  | n + 1, f => .asked false :: (Run.callsOf f.advance).map .told ++ script n f.advance.fit

end Fit

/-! ## Runs -/

namespace Run

/-- A run that was asked for `n` steps took `k` of them, and was stopped if some were left. -/
structure Took (r : Run α σ) (n k : Nat) (out : Run α σ × Bool) : Prop where
  fit : out.1.fit = (r.fit.advanceMany k).1
  last : out.1.last = (r.fit.advanceMany k).2.getLast?.or r.last
  stopped : out.2 = true → k < n
  finished : out.2 = false → k = n

/-- A step, and then those of the rest of the run. -/
theorem Took.later {r next : Run α σ} {n k : Nat} {out : Run α σ × Bool} (took : Took next n k out)
    (fit : next.fit = r.fit.advance.fit) (last : next.last = some r.fit.advance.metrics) :
    Took r (n + 1) (k + 1) out := by
  refine ⟨?_, ?_, fun stopped => Nat.succ_lt_succ (took.stopped stopped),
    fun finished => congrArg Nat.succ (took.finished finished)⟩
  · rw [took.fit, fit]
    rfl
  · rw [took.last, last, fit, Fit.advanceMany, List.getLast?_cons]
    cases (r.fit.advance.fit.advanceMany k).2.getLast? <;> rfl

/-- A run takes some of the steps that it was asked for and tells of each. -/
theorem steps_recorded (o : Observer α σ) (n : Nat) (r : Run α (σ × List (Exchange α))) :
    ∃ k, Took r n k (Run.steps o.recorded n r) ∧
      (Run.steps o.recorded n r).1.observer.2 = r.observer.2 ++ r.fit.script k ++
        if (Run.steps o.recorded n r).2 then [.asked true] else [] := by
  induction n generalizing r with
  | zero => exact ⟨0, ⟨rfl, rfl, nofun, fun _ => rfl⟩, by simp [Run.steps, Fit.script]⟩
  | succ n ih =>
    rw [Run.steps]
    have asked : o.recorded.shouldStop r.observer =
        ((o.shouldStop r.observer.1).1, (o.shouldStop r.observer.1).2,
          r.observer.2 ++ [.asked (o.shouldStop r.observer.1).1]) := rfl
    rw [asked]
    rcases o.shouldStop r.observer.1 with ⟨stop, s⟩
    cases stop with
    | true =>
      refine ⟨0, ⟨rfl, rfl, fun _ => Nat.succ_pos n, ?_⟩, by simp [Fit.script]⟩
      intro going
      have contrary : true = false := going
      cases contrary
    | false =>
      let told : Run α (σ × List (Exchange α)) :=
        ⟨r.fit, (s, r.observer.2 ++ [.asked false]), r.last, r.journal⟩
      obtain ⟨k, took, later⟩ := ih (told.step o.recorded)
      obtain ⟨fit, last⟩ := step_eq o.recorded told
      have past : (told.step o.recorded).observer.2 = r.observer.2 ++ [.asked false] ++
          (callsOf r.fit.advance).map .told := tells_recorded o (callsOf r.fit.advance) _
      refine ⟨k + 1, took.later fit last, later.trans ?_⟩
      rw [past, fit, Fit.script]
      simp only [List.append_assoc, List.cons_append, List.nil_append]
      rfl

theorem steps_took (o : Observer α σ) (n : Nat) (r : Run α σ) :
    ∃ k, Took r n k (Run.steps o n r) := by
  let watched : Run α (σ × List (Exchange α)) := ⟨r.fit, (r.observer, []), r.last, r.journal⟩
  obtain ⟨k, took, -⟩ := steps_recorded o n watched
  have shown : Run.steps o n r = _ := steps_shown o.recorded_shows n watched
  rw [shown]
  exact ⟨k, took.fit, took.last, took.stopped, took.finished⟩

end Run

/-- All that passes between a run and its observer. -/
def Fit.exchanges (f : Fit α) (o : Observer α σ) (observer : σ) : List (Exchange α) :=
  (f.run o.recorded (observer, [])).observer.2

/-- A run that takes `k` steps, tells of each and of its end, and is asked to stop before the budget
is used up or not at all. -/
structure Fit.Ran (f : Fit α) (o : Observer α σ) (observer : σ) (k : Nat)
    (out : Finished α σ) : Prop where
  fit : out.fit = (f.advanceMany k).1
  summary : out.summary = ⟨k, (f.advanceMany k).2.getLast?, out.fit.best.map (·.step),
    out.fit.best.map (·.loss), out.summary.cancelled⟩
  exchanges : f.exchanges o observer = f.script k ++ Exchange.ending out.summary out.fit.best
  stopped : out.summary.cancelled = true → k < f.settings.steps - f.stepsTaken
  finished : out.summary.cancelled = false → k = f.settings.steps - f.stepsTaken

theorem Fit.Ran.le {f : Fit α} {o : Observer α σ} {observer : σ} {k : Nat} {out : Finished α σ}
    (ran : f.Ran o observer k out) : k ≤ f.settings.steps - f.stepsTaken := by
  cases cancelled : out.summary.cancelled with
  | true => exact Nat.le_of_lt (ran.stopped cancelled)
  | false => exact Nat.le_of_eq (ran.finished cancelled)

theorem Fit.exists_ran (f : Fit α) (o : Observer α σ) (observer : σ) :
    ∃ k, f.Ran o observer k (f.run o observer) := by
  let budget := f.settings.steps - f.stepsTaken
  let start : Run α (σ × List (Exchange α)) := ⟨f, (observer, []), none, #[]⟩
  let out := Run.steps o.recorded budget start
  obtain ⟨k, took, past⟩ := Run.steps_recorded o budget start
  have shown : f.run o observer = (f.run o.recorded (observer, [])).view Prod.fst :=
    f.run_shown o.recorded_shows (observer, [])
  have taken : out.1.fit.stepsTaken - f.stepsTaken = k := by
    rw [took.fit, Fit.stepsTaken_advanceMany]
    exact Nat.add_sub_cancel_left ..
  have last : out.1.last = (f.advanceMany k).2.getLast? := took.last.trans Option.or_none
  rw [shown]
  refine ⟨k, took.fit, ?_, ?_, took.stopped, took.finished⟩
  · show out.1.summary f.stepsTaken out.2 = _
    rw [Run.summary, taken, last]
    rfl
  · show out.1.observer.2 ++ [_] = _
    rw [past]
    exact List.append_assoc ..

@[simp] theorem Fit.settings_run (f : Fit α) (o : Observer α σ) (observer : σ) :
    (f.run o observer).fit.settings = f.settings := by
  obtain ⟨k, ran⟩ := f.exists_ran o observer
  rw [ran.fit, settings_advanceMany]

theorem Fit.stepsTaken_run {f : Fit α} {o : Observer α σ} {observer : σ}
    (whole : (f.run o observer).summary.cancelled = false) :
    f.settings.steps ≤ (f.run o observer).fit.stepsTaken := by
  obtain ⟨k, ran⟩ := f.exists_ran o observer
  have count := ran.finished whole
  rw [ran.fit, stepsTaken_advanceMany]
  omega

/-- An observer that never asks to stop lets a run take all its steps. -/
theorem Run.steps_whole {o : Observer α σ} (goes : ∀ s, (o.shouldStop s).1 = false) (n : Nat)
    (r : Run α σ) : (Run.steps o n r).2 = false := by
  induction n generalizing r with
  | zero => rfl
  | succ n ih =>
    rw [Run.steps]
    rcases asked : o.shouldStop r.observer with ⟨stop, s⟩
    obtain rfl : stop = false := by rw [← goes r.observer, asked]
    exact ih _

theorem Fit.run_whole {o : Observer α σ} (goes : ∀ s, (o.shouldStop s).1 = false) (f : Fit α)
    (s : σ) : (f.run o s).summary.cancelled = false :=
  Run.steps_whole goes _ _

/-! ## The steps that are told -/

theorem Fit.metrics_script (k : Nat) (f : Fit α) :
    ((f.script k).filterMap Exchange.call?).filterMap Call.metrics? = (f.advanceMany k).2 := by
  induction k generalizing f with
  | zero => rfl
  | succ k ih =>
    have told : ((Run.callsOf f.advance).map Exchange.told).filterMap Exchange.call? =
        Run.callsOf f.advance := by
      rw [List.filterMap_map]
      exact List.filterMap_some
    rw [script, List.cons_append, List.filterMap_cons_none rfl, List.filterMap_append, told,
      List.filterMap_append, Run.metrics_callsOf, ih]
    rfl

/-- The metrics of the steps that a run tells its observer, in order. -/
def Fit.reported (f : Fit α) (o : Observer α σ) (observer : σ) : List (Metrics α) :=
  (f.run (o.pair .history) (observer, .empty)).observer.2.steps.toList

theorem Fit.reported_eq (f : Fit α) (o : Observer α σ) (observer : σ) :
    f.reported o observer =
      ((f.exchanges o observer).filterMap Exchange.call?).filterMap Call.metrics? := by
  have shown := f.run_shown o.recorded_shows_history (observer, [])
  have kept : f.reported o observer = _ :=
    congrArg (fun out => out.observer.2.steps.toList) shown
  rw [kept]
  exact (History.steps_add .empty _).trans (List.nil_append _)

/-- A run takes some steps and tells of each. -/
theorem Fit.run_eq (f : Fit α) (o : Observer α σ) (observer : σ) :
    ∃ k ≤ f.settings.steps - f.stepsTaken,
      f.advanceMany k = ((f.run o observer).fit, f.reported o observer) := by
  obtain ⟨k, ran⟩ := f.exists_ran o observer
  refine ⟨k, ran.le, Prod.ext ran.fit.symm ?_⟩
  rw [Fit.reported_eq, ran.exchanges, List.filterMap_append, List.filterMap_append,
    Fit.metrics_script, Exchange.calls_ending]
  exact (List.append_nil _).symm

/-! ## Steps and runs in any order -/

/-- What a fit comes to by steps and runs in any order, and the metrics of the steps told on the
way. -/
inductive Driven (fresh : Fit α) : List (Metrics α) → Fit α → Prop
  | start : Driven fresh [] fresh
  | step {told : List (Metrics α)} {f : Fit α} (before : Driven fresh told f) :
      Driven fresh (told ++ [f.advance.metrics]) f.advance.fit
  | run {told : List (Metrics α)} {f : Fit α} {σ : Type} (o : Observer α σ) (observer : σ)
      (before : Driven fresh told f) :
      Driven fresh (told ++ f.reported o observer) (f.run o observer).fit

/-- However a fit was driven, it took the steps that were told. -/
theorem Driven.advanceMany_eq {fresh f : Fit α} {told : List (Metrics α)}
    (driven : Driven fresh told f) :
    fresh.advanceMany told.length = (f, told) := by
  induction driven with
  | start => rfl
  | step _ ih => rw [List.length_append, List.length_singleton, Fit.advanceMany_succ, ih]
  | @run told f σ o observer _ ih =>
    obtain ⟨k, -, taken⟩ := f.run_eq o observer
    have size : (f.reported o observer).length = k := by
      rw [← Fit.length_advanceMany k f, taken]
    rw [List.length_append, size, Fit.advanceMany_add, ih, taken]

end RoadFlow
