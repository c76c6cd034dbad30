import RoadFlow.Proofs.Fit.Best

/-!
# Runs that are stopped

An observer has a say in how many steps a run takes and in nothing else. Runs of one fit go through
the same fits as long as they go on, under two observers side by side as long as both let them. A
fit that is run again whenever it was stopped comes to what one run comes to, and no call is lost or
made twice (`observers_only_truncate`).
-/

namespace RoadFlow

variable {α β σ τ : Type}

/-! ## Two observers side by side -/

section

variable (a : Observer α σ) (b : Observer α τ)

/-- The parts of a pair hear what the pair hears, and are asked when it is asked. -/
theorem Observer.pair_keeps :
    (a.recorded.pair b.recorded).recorded.Keeps fun (((_, xs), (_, ys)), zs) =>
      xs.map Exchange.call? = zs.map Exchange.call? ∧
        ys.map Exchange.call? = zs.map Exchange.call? := by
  constructor
  · rintro ⟨⟨⟨s, xs⟩, ⟨t, ys⟩⟩, zs⟩ ⟨left, right⟩
    simp [recorded, pair, Exchange.call?, left, right]
  · rintro ⟨⟨⟨s, xs⟩, ⟨t, ys⟩⟩, zs⟩ call ⟨left, right⟩
    simp [recorded, pair, Exchange.call?, left, right]

theorem Observer.pair_shows :
    (a.recorded.pair b.recorded).recorded.Shows (a.pair b).recorded
      fun (((s, _), (t, _)), zs) => ((s, t), zs) :=
  ⟨fun _ => rfl, fun _ _ => rfl⟩

theorem Run.tells_pair (calls : List (Call α)) {p : Run α (σ × τ)} {r : Run α σ} {q : Run α τ}
    (h : p.observer = (r.observer, q.observer)) :
    (calls.foldl (Run.tell (a.pair b)) p).observer =
      ((calls.foldl (Run.tell a) r).observer, (calls.foldl (Run.tell b) q).observer) := by
  induction calls generalizing p r q with
  | nil => exact h
  | cons call calls ih =>
    apply ih
    show ((a.pair b).receive p.observer call).1 = _
    rw [h]
    rfl

variable [Scalar α] [Scalar β] [Widens α β]

theorem Run.step_pair {p : Run α (σ × τ)} {r : Run α σ} {q : Run α τ} (left : p.fit = r.fit)
    (right : p.fit = q.fit) (h : p.observer = (r.observer, q.observer)) :
    (p.step (a.pair b)).observer = ((r.step a).observer, (q.step b).observer) := by
  rw [Run.step, Run.step, Run.step, ← left, ← right]
  exact tells_pair a b (callsOf p.fit.advance) h

end

variable [Scalar α] [Scalar β] [Widens α β]

theorem Run.le_stepsTaken (o : Observer α σ) (n : Nat) (r : Run α σ) :
    r.fit.stepsTaken ≤ (Run.steps o n r).1.fit.stepsTaken := by
  obtain ⟨k, took⟩ := Run.steps_took o n r
  rw [took.fit, Fit.stepsTaken_advanceMany]
  exact Nat.le_add_right ..

section

variable {o : Observer α σ} {r : Run α σ} {s : σ}

theorem Run.steps_stopped (answer : o.shouldStop r.observer = (true, s)) (n : Nat) :
    (Run.steps o (n + 1) r).1.fit = r.fit := by
  rw [Run.steps, answer]

theorem Run.steps_going (answer : o.shouldStop r.observer = (false, s)) (n : Nat) :
    Run.steps o (n + 1) r = Run.steps o n ({ r with observer := s }.step o) := by
  rw [Run.steps, answer]

end

/-- A pair stops with the first of its parts. -/
theorem Run.stepsTaken_pair (a : Observer α σ) (b : Observer α τ) (n : Nat) {p : Run α (σ × τ)}
    {r : Run α σ} {q : Run α τ} (left : p.fit = r.fit) (right : p.fit = q.fit)
    (h : p.observer = (r.observer, q.observer)) :
    (Run.steps (a.pair b) n p).1.fit.stepsTaken =
      min (Run.steps a n r).1.fit.stepsTaken (Run.steps b n q).1.fit.stepsTaken := by
  induction n generalizing p r q with
  | zero => simp only [Run.steps, ← left, ← right, Nat.min_self]
  | succ n ih =>
    have lower := Run.le_stepsTaken a (n + 1) r
    have lower' := Run.le_stepsTaken b (n + 1) q
    rcases answer : a.shouldStop r.observer with ⟨stop, s⟩
    rcases answer' : b.shouldStop q.observer with ⟨stop', t⟩
    have asked : (a.pair b).shouldStop p.observer = (stop || stop', s, t) := by
      simp only [h, Observer.pair, answer, answer']
    cases stop with
    | true =>
      rw [← left] at lower
      rw [← right] at lower'
      rw [steps_stopped asked, steps_stopped answer, ← left]
      omega
    | false =>
      cases stop' with
      | true =>
        rw [← left] at lower
        rw [steps_stopped asked, steps_stopped answer', ← right]
        omega
      | false =>
        rw [steps_going asked, steps_going answer, steps_going answer']
        apply ih
        · rw [(step_eq _ _).1, (step_eq _ _).1, left]
        · rw [(step_eq _ _).1, (step_eq _ _).1, right]
        · exact step_pair a b left right rfl

/-! ## The first steps of a run -/

/-- More steps are taken from where the first ones came to, unless these were stopped. -/
theorem Run.steps_add (o : Observer α σ) (i j : Nat) (r : Run α σ) :
    Run.steps o (i + j) r =
      if (Run.steps o i r).2 then Run.steps o i r else Run.steps o j (Run.steps o i r).1 := by
  induction i generalizing r with
  | zero => simp [Run.steps]
  | succ i ih =>
    rw [Nat.succ_add, Run.steps, Run.steps]
    rcases o.shouldStop r.observer with ⟨stop, s⟩
    cases stop with
    | true => rfl
    | false => exact ih _

/-- A run after its first steps. -/
def Fit.within (f : Fit α) (o : Observer α σ) (observer : σ) (i : Nat) : Run α σ :=
  (Run.steps o i ⟨f, observer, none, #[]⟩).1

/-- As long as a run goes on, its observer does not matter to the fit. -/
theorem Fit.Ran.within_eq {f : Fit α} {o : Observer α σ} {observer : σ} {k i : Nat}
    (ran : f.Ran o observer k (f.run o observer)) (early : i ≤ k) :
    (f.within o observer i).fit = (f.advanceMany i).1 ∧
      (f.within o observer i).last = (f.advanceMany i).2.getLast? := by
  let start : Run α σ := ⟨f, observer, none, #[]⟩
  obtain ⟨j, took⟩ := Run.steps_took o i start
  have reached : j = i := by
    cases stopped : (Run.steps o i start).2 with
    | false => exact took.finished stopped
    | true =>
      -- a run that was stopped before comes to nothing more, but it took k steps
      have budget : f.settings.steps - f.stepsTaken =
          i + (f.settings.steps - f.stepsTaken - i) := by
        have small := ran.le
        omega
      have whole : (f.run o observer).fit = (Run.steps o i start).1.fit := by
        show (Run.steps o (f.settings.steps - f.stepsTaken) start).1.fit = _
        rw [budget, Run.steps_add, stopped, if_pos rfl]
      have same := congrArg Fit.stepsTaken (ran.fit.symm.trans (whole.trans took.fit))
      rw [stepsTaken_advanceMany, stepsTaken_advanceMany] at same
      have before := took.stopped stopped
      have same : f.stepsTaken + k = f.stepsTaken + j := same
      omega
  rw [reached] at took
  exact ⟨took.fit, took.last.trans Option.or_none⟩

/-! ## Running again -/

/-- What a run tells of its steps: all calls but the one that ends it. -/
def Exchange.payload? : Exchange α → Option (Call α)
  | .told (.fitEnd ..) => none
  | exchange => exchange.call?

def Fit.payloads (f : Fit α) (o : Observer α σ) (observer : σ) : List (Call α) :=
  (f.exchanges o observer).filterMap Exchange.payload?

theorem Fit.Ran.payloads_eq {f : Fit α} {o : Observer α σ} {observer : σ} {k : Nat}
    {out : Finished α σ} (ran : f.Ran o observer k out) :
    f.payloads o observer = (f.script k).filterMap Exchange.payload? := by
  have silent : (Exchange.ending out.summary out.fit.best).filterMap Exchange.payload? = [] := by
    unfold Exchange.ending
    cases out.summary.cancelled <;> rfl
  rw [Fit.payloads, ran.exchanges, List.filterMap_append, silent, List.append_nil]

theorem Fit.script_add (n k : Nat) (f : Fit α) :
    f.script (n + k) = f.script n ++ (f.advanceMany n).1.script k := by
  induction n generalizing f with
  | zero => simp [script, advanceMany]
  | succ n ih =>
    rw [Nat.succ_add, script, script, ih, List.append_assoc]
    rfl

/-- What a fit comes to by runs one after the other, each with an observer of its own, and what
they tell of their steps. -/
inductive Interrupted (f : Fit α) : List (Call α) → Fit α → Prop
  | start : Interrupted f [] f
  | run {calls : List (Call α)} {g : Fit α} {σ : Type} (o : Observer α σ) (observer : σ)
      (before : Interrupted f calls g) :
      Interrupted f (calls ++ g.payloads o observer) (g.run o observer).fit

/-- However often runs were stopped, they took steps one after the other within the budget. -/
theorem Interrupted.steps {f g : Fit α} {calls : List (Call α)} (h : Interrupted f calls g) :
    ∃ k ≤ f.settings.steps - f.stepsTaken,
      g = (f.advanceMany k).1 ∧ calls = (f.script k).filterMap Exchange.payload? := by
  induction h with
  | start => exact ⟨0, Nat.zero_le _, rfl, rfl⟩
  | @run calls g σ o observer _ ih =>
    obtain ⟨k, small, rfl, rfl⟩ := ih
    obtain ⟨j, ran⟩ := (f.advanceMany k).1.exists_ran o observer
    have fits := ran.le
    rw [Fit.settings_advanceMany, Fit.stepsTaken_advanceMany] at fits
    refine ⟨k + j, by omega, ?_, ?_⟩
    · rw [ran.fit, Fit.advanceMany_add]
    · rw [ran.payloads_eq, Fit.script_add, List.filterMap_append]

/-! ## Limits -/

/-- A limit counts steps and nothing else. -/
theorem Run.tells_stopping (limit : Option Nat) (calls : List (Call α)) (r : Run α StopState) :
    (calls.foldl (tell (.stopping limit none)) r).observer =
      ⟨r.observer.steps + (calls.filterMap Call.metrics?).length, r.observer.below⟩ := by
  induction calls generalizing r with
  | nil => rfl
  | cons call calls ih =>
    rw [List.foldl_cons, ih]
    cases call <;> simp [tell, Observer.stopping, Call.metrics?, List.filterMap_cons]
    omega

theorem Run.step_stopping (limit : Option Nat) (r : Run α StopState) :
    (r.step (.stopping limit none)).observer = ⟨r.observer.steps + 1, r.observer.below⟩ := by
  have told := tells_stopping limit (callsOf r.fit.advance)
    { r with fit := r.fit.advance.fit, last := some r.fit.advance.metrics }
  rw [metrics_callsOf] at told
  exact told

/-- A limit lets through as many steps as it has left. -/
theorem Run.stepsTaken_stopping (limit n : Nat) {r : Run α StopState}
    (under : r.observer.below = false) :
    (Run.steps (.stopping (some limit) none) n r).1.fit.stepsTaken =
      r.fit.stepsTaken + min (limit - r.observer.steps) n := by
  induction n generalizing r with
  | zero => simp [Run.steps]
  | succ n ih =>
    let o : Observer α StopState := .stopping (some limit) none
    have answer : o.shouldStop r.observer = (decide (limit ≤ r.observer.steps), r.observer) := by
      simp [o, Observer.stopping, under]
    by_cases reached : limit ≤ r.observer.steps
    · rw [decide_eq_true reached] at answer
      rw [steps_stopped answer]
      omega
    · rw [decide_eq_false reached] at answer
      have seen : (r.step o).observer = _ := step_stopping (some limit) r
      have taken : (r.step o).fit.stepsTaken = r.fit.stepsTaken + 1 :=
        congrArg Fit.stepsTaken (step_eq o r).1
      have later := ih (r := r.step o) (by rw [seen, under])
      rw [seen, taken] at later
      rw [steps_going answer]
      refine later.trans ?_
      dsimp only
      omega

theorem Fit.stepsRun_stopping (f : Fit α) (limit : Nat) :
    (f.run (.stopping (some limit) none) ⟨0, false⟩).summary.stepsRun =
      min limit (f.settings.steps - f.stepsTaken) := by
  have taken := Run.stepsTaken_stopping limit (f.settings.steps - f.stepsTaken)
    (r := ⟨f, ⟨0, false⟩, none, #[]⟩) rfl
  show (Run.steps _ _ _).1.fit.stepsTaken - f.stepsTaken = _
  rw [taken]
  exact Nat.add_sub_cancel_left ..

theorem Fit.run_silent (f : Fit α) : (f.run .silent ()).summary.cancelled = false :=
  f.run_whole (fun _ => rfl) ()

/-! ## All that observers can do -/

/-- What the two parts of a pair come to in a run, each with all that passed between it and the
run. -/
def Fit.heard (f : Fit α) (a : Observer α σ) (s : σ) (b : Observer α τ) (t : τ) :
    (σ × List (Exchange α)) × (τ × List (Exchange α)) :=
  (f.run (a.recorded.pair b.recorded) ((s, []), (t, []))).observer

/-- The metrics of the last step of a run, and the fit that it has come to. -/
def Run.state (r : Run α σ) : Option (Metrics α) × Fit α := (r.last, r.fit)

/-- What two observers can do to runs of one fit, alone and side by side. -/
structure Fit.Indifferent (f : Fit α) (a : Observer α σ) (s : σ) (b : Observer α τ) (t : τ) :
    Prop where
  /-- Side by side they stop the run when the first of them would. -/
  stepsRun : (f.run (a.pair b) (s, t)).summary.stepsRun =
    min (f.run a s).summary.stepsRun (f.run b t).summary.stepsRun
  /-- Up to there the three runs take the same steps to the same fits. -/
  within : ∀ i ≤ min (f.run a s).summary.stepsRun (f.run b t).summary.stepsRun,
    (f.within a s i).state = (f.within b t i).state ∧
      (f.within (a.pair b) (s, t) i).state = (f.within a s i).state
  /-- A run leaves the fit that its last step came to. -/
  fit : (f.run a s).fit = (f.within a s (f.run a s).summary.stepsRun).fit
  /-- Side by side they end as the pair does. -/
  ends : ((f.heard a s b t).1.1, (f.heard a s b t).2.1) = (f.run (a.pair b) (s, t)).observer
  /-- Both hear every call of the run, and both are asked whenever the pair is. -/
  left : (f.heard a s b t).1.2.map Exchange.call? =
    (f.exchanges (a.pair b) (s, t)).map Exchange.call?
  right : (f.heard a s b t).2.2.map Exchange.call? =
    (f.exchanges (a.pair b) (s, t)).map Exchange.call?

theorem Fit.stepsRun_pair (f : Fit α) (a : Observer α σ) (s : σ) (b : Observer α τ) (t : τ) :
    (f.run (a.pair b) (s, t)).summary.stepsRun =
      min (f.run a s).summary.stepsRun (f.run b t).summary.stepsRun := by
  have taken := Run.stepsTaken_pair a b (f.settings.steps - f.stepsTaken)
    (p := ⟨f, (s, t), none, #[]⟩) (r := ⟨f, s, none, #[]⟩) (q := ⟨f, t, none, #[]⟩) rfl rfl rfl
  show (Run.steps (a.pair b) _ _).1.fit.stepsTaken - f.stepsTaken =
    min ((Run.steps a _ _).1.fit.stepsTaken - f.stepsTaken)
      ((Run.steps b _ _).1.fit.stepsTaken - f.stepsTaken)
  rw [taken]
  omega

theorem Fit.within_state (f : Fit α) (o : Observer α σ) (observer : σ) {i : Nat}
    (early : i ≤ (f.run o observer).summary.stepsRun) :
    (f.within o observer i).state = ((f.advanceMany i).2.getLast?, (f.advanceMany i).1) := by
  obtain ⟨k, ran⟩ := f.exists_ran o observer
  rw [ran.summary] at early
  obtain ⟨fit, last⟩ := ran.within_eq early
  rw [Run.state, fit, last]

theorem Fit.indifferent (f : Fit α) (a : Observer α σ) (s : σ) (b : Observer α τ) (t : τ) :
    f.Indifferent a s b t := by
  let parts := a.recorded.pair b.recorded
  let start : ((σ × List (Exchange α)) × (τ × List (Exchange α))) × List (Exchange α) :=
    (((s, []), (t, [])), [])
  have both : f.heard a s b t = (f.run parts.recorded start).observer.1 :=
    congrArg Finished.observer (f.run_shown parts.recorded_shows start)
  have whole : f.run (a.pair b).recorded ((s, t), []) = _ := f.run_shown (a.pair_shows b) start
  have plain : f.run (a.pair b) (s, t) = _ := f.run_shown (a.pair b).recorded_shows ((s, t), [])
  have kept := f.run_keeps (a.pair_keeps b) (s := start) ⟨rfl, rfl⟩
  refine ⟨f.stepsRun_pair a s b t, ?_, ?_, ?_, ?_, ?_⟩
  · intro i early
    have early' := early
    rw [← f.stepsRun_pair a s b t] at early'
    rw [Nat.le_min] at early
    rw [f.within_state a s early.1, f.within_state b t early.2, f.within_state _ _ early']
    exact ⟨rfl, rfl⟩
  · obtain ⟨k, ran⟩ := f.exists_ran a s
    have same := congrArg Prod.snd (f.within_state a s (Nat.le_refl _))
    rw [ran.summary] at same ⊢
    exact ran.fit.trans same.symm
  · rw [both, plain, whole]
    rfl
  · rw [both, Fit.exchanges, whole]
    exact kept.1
  · rw [both, Fit.exchanges, whole]
    exact kept.2

/-- Observers truncate runs and do nothing else to them. When a fit is run again until its budget
is used up, it comes to what that many steps come to, and so does any run that is not stopped;
all calls are those of that run. -/
theorem observers_only_truncate (f : Fit α) (a : Observer α σ) (s : σ) (b : Observer α τ) (t : τ) :
    f.Indifferent a s b t ∧
    ∀ (calls : List (Call α)) (g : Fit α), Interrupted f calls g →
      f.settings.steps ≤ g.stepsTaken →
      g = (f.advanceMany (f.settings.steps - f.stepsTaken)).1 ∧
      ∀ (ρ : Type) (o : Observer α ρ) (start : ρ), (f.run o start).summary.cancelled = false →
        g = (f.run o start).fit ∧ calls = f.payloads o start := by
  refine ⟨f.indifferent a s b t, fun calls g interrupted used => ?_⟩
  obtain ⟨k, small, rfl, rfl⟩ := interrupted.steps
  have all : k = f.settings.steps - f.stepsTaken := by
    rw [Fit.stepsTaken_advanceMany] at used
    omega
  subst all
  refine ⟨rfl, fun ρ o start whole => ?_⟩
  obtain ⟨j, ran⟩ := f.exists_ran o start
  obtain rfl := ran.finished whole
  exact ⟨ran.fit.symm, ran.payloads_eq.symm⟩

/-- A fit that was stopped after one step and run again. -/
theorem observers_only_truncate_sample :
    ∃ fresh, Fit.start .sample .sample .standard = .ok fresh ∧
      let limit : Observer Float32 StopState := .stopping (some 1) none
      let first := fresh.run limit ⟨0, false⟩
      let second := first.fit.run .silent ()
      let calls := fresh.payloads limit ⟨0, false⟩ ++ first.fit.payloads .silent ()
      first.summary.stepsRun = 1 ∧ Interrupted fresh calls second.fit ∧
      fresh.settings.steps ≤ second.fit.stepsTaken ∧
      (fresh.run .silent ()).summary.cancelled = false ∧
      second.fit = (fresh.advanceMany 1000).1 ∧
      second.fit = (fresh.run .silent ()).fit ∧ calls = fresh.payloads .silent () := by
  obtain ⟨fresh, started⟩ := Fit.start_sample
  have budget : fresh.settings.steps - fresh.stepsTaken = 1000 := by
    cases started
    rfl
  have first := (Interrupted.start : Interrupted fresh [] fresh).run (.stopping (some 1) none) ⟨0, false⟩
  have second := first.run .silent ()
  have used := Fit.stepsTaken_run
    (Fit.run_silent (fresh.run (.stopping (some 1) none) ⟨0, false⟩).fit)
  rw [Fit.settings_run] at used
  obtain ⟨-, once⟩ := observers_only_truncate fresh .silent () .silent ()
  obtain ⟨many, whole⟩ := once _ _ second used
  have silent := fresh.run_silent
  obtain ⟨same, calls⟩ := whole _ .silent () silent
  rw [budget] at many
  have one : min 1 (fresh.settings.steps - fresh.stepsTaken) = 1 := by rw [budget]; rfl
  exact ⟨fresh, started, (fresh.stepsRun_stopping 1).trans one, second, used, silent, many, same,
    calls⟩

end RoadFlow
