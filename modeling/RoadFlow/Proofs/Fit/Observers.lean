import RoadFlow.Fit.Run

/-!
# Observers watched

An observer whose state shows another's state, and which answers as that one does, sees the same run
(`Fit.run_shown`). So a run can be watched: under `Observer.recorded` it is the run under the
observer itself, with all that passes between the two written down.
-/

namespace RoadFlow

variable {α β σ τ : Type}

/-- The states of the first observer show states of the second, and both answer alike. -/
structure Observer.Shows (o : Observer α σ) (p : Observer α τ) (view : σ → τ) : Prop where
  shouldStop (s : σ) : p.shouldStop (view s) = ((o.shouldStop s).1, view (o.shouldStop s).2)
  receive (s : σ) (call : Call α) :
    p.receive (view s) call = (view (o.receive s call).1, (o.receive s call).2)

/-- What an observer's state keeps when it is asked and when it is told something. -/
structure Observer.Keeps (o : Observer α σ) (P : σ → Prop) : Prop where
  shouldStop {s : σ} : P s → P (o.shouldStop s).2
  receive {s : σ} (call : Call α) : P s → P (o.receive s call).1

/-- A run with its observer's state seen through a view. -/
def Run.view (view : σ → τ) (r : Run α σ) : Run α τ := ⟨r.fit, view r.observer, r.last, r.journal⟩

def Finished.view (view : σ → τ) (r : Finished α σ) : Finished α τ :=
  ⟨r.fit, view r.observer, r.summary, r.journal⟩

/-! ## What passes between a run and its observer -/

inductive Exchange (α : Type) where
  /-- The run asks whether to stop, and is answered. -/
  | asked (stop : Bool)
  | told (call : Call α)

/-- What is told, if it is not a question. -/
def Exchange.call? : Exchange α → Option (Call α)
  | .asked _ => none
  | .told call => some call

/-- What passes when a run is over: the question that stopped it, if one did, and then the end. -/
def Exchange.ending (summary : RunSummary α) (best : Option (Flows α)) : List (Exchange α) :=
  (if summary.cancelled then [.asked true] else []) ++ [.told (.fitEnd summary best)]

theorem Exchange.calls_ending (summary : RunSummary α) (best : Option (Flows α)) :
    (ending summary best).filterMap call? = [.fitEnd summary best] := by
  unfold ending
  cases summary.cancelled <;> rfl

/-- An observer with all that passed between it and the run. -/
def Observer.recorded (o : Observer α σ) : Observer α (σ × List (Exchange α)) where
  shouldStop := fun (s, past) =>
    let (stop, s) := o.shouldStop s
    (stop, s, past ++ [.asked stop])
  receive := fun (s, past) call =>
    let (s, records) := o.receive s call
    ((s, past ++ [.told call]), records)

/-- An observer goes through an exchange from one state to another: what it is asked it answers as
is said, and what it is told it receives. -/
inductive Observer.Meets (o : Observer α σ) (start : σ) : List (Exchange α) → σ → Prop
  | start : Meets o start [] start
  | asked {past : List (Exchange α)} {s : σ} (before : Meets o start past s) :
      Meets o start (past ++ [.asked (o.shouldStop s).1]) (o.shouldStop s).2
  | told {past : List (Exchange α)} {s : σ} (before : Meets o start past s) (call : Call α) :
      Meets o start (past ++ [.told call]) (o.receive s call).1

theorem Observer.recorded_keeps (o : Observer α σ) (start : σ) :
    o.recorded.Keeps fun (s, past) => o.Meets start past s :=
  ⟨fun before => before.asked, fun call before => before.told call⟩

theorem Observer.recorded_shows (o : Observer α σ) : o.recorded.Shows o Prod.fst :=
  ⟨fun _ => rfl, fun _ _ => rfl⟩

/-- A history is kept by whoever has all that passed. -/
theorem Observer.recorded_shows_history (o : Observer α σ) :
    o.recorded.Shows (o.pair .history) fun (s, past) =>
      (s, (past.filterMap Exchange.call?).foldl History.add .empty) := by
  constructor
  · intro ⟨s, past⟩
    simp [pair, recorded, history, Exchange.call?, List.filterMap_cons]
  · intro ⟨s, past⟩ call
    simp [pair, recorded, history, Exchange.call?]

/-- To tell an observer something leaves all but the observer and the records as they are. -/
theorem Run.tells_eq (o : Observer α σ) (calls : List (Call α)) (r : Run α σ) :
    (calls.foldl (Run.tell o) r).fit = r.fit ∧ (calls.foldl (Run.tell o) r).last = r.last := by
  induction calls generalizing r with
  | nil => exact ⟨rfl, rfl⟩
  | cons call calls ih => exact ih (r.tell o call)

theorem Run.tells_recorded (o : Observer α σ) (calls : List (Call α))
    (r : Run α (σ × List (Exchange α))) :
    (calls.foldl (Run.tell o.recorded) r).observer.2 = r.observer.2 ++ calls.map .told := by
  induction calls generalizing r with
  | nil => simp
  | cons call calls ih =>
    refine (ih (r.tell o.recorded call)).trans ?_
    simp [Run.tell, Observer.recorded]

/-- The metrics in a call that tells of a step. -/
def Call.metrics? : Call α → Option (Metrics α)
  | .step m => some m
  | _ => none

/-- A step is told once, whatever else is. -/
theorem Run.metrics_callsOf (a : Fit.Advance α) :
    (Run.callsOf a).filterMap Call.metrics? = [a.metrics] := by
  unfold Run.callsOf
  cases a.fit.best <;> simp [Call.metrics?]

theorem History.steps_add (h : History α) (calls : List (Call α)) :
    (calls.foldl History.add h).steps.toList = h.steps.toList ++ calls.filterMap Call.metrics? := by
  induction calls generalizing h with
  | nil => simp
  | cons call calls ih =>
    rw [List.foldl_cons, ih]
    cases call <;> simp [History.add, Call.metrics?, List.filterMap_cons]

/-! ## Runs -/

section

variable {o : Observer α σ} {p : Observer α τ} {view : σ → τ} {P : σ → Prop}

theorem Run.tell_shown (shows : o.Shows p view) (r : Run α σ) (call : Call α) :
    (r.view view).tell p call = (r.tell o call).view view := by
  simp only [Run.tell, Run.view, shows.receive]

theorem Run.tells_shown (shows : o.Shows p view) (calls : List (Call α)) (r : Run α σ) :
    calls.foldl (Run.tell p) (r.view view) = (calls.foldl (Run.tell o) r).view view := by
  induction calls generalizing r with
  | nil => rfl
  | cons call calls ih => rw [List.foldl_cons, List.foldl_cons, tell_shown shows, ih]

theorem Run.tells_keep (keeps : o.Keeps P) (calls : List (Call α)) {r : Run α σ}
    (h : P r.observer) : P (calls.foldl (Run.tell o) r).observer := by
  induction calls generalizing r with
  | nil => exact h
  | cons call calls ih =>
    apply ih
    exact keeps.receive call h

variable [Scalar α] [Scalar β] [Widens α β]

theorem Run.step_eq (o : Observer α σ) (r : Run α σ) :
    (r.step o).fit = r.fit.advance.fit ∧ (r.step o).last = some r.fit.advance.metrics :=
  tells_eq o (Run.callsOf r.fit.advance)
    { r with fit := r.fit.advance.fit, last := some r.fit.advance.metrics }

theorem Run.step_shown (shows : o.Shows p view) (r : Run α σ) :
    (r.view view).step p = (r.step o).view view :=
  tells_shown shows (Run.callsOf r.fit.advance)
    { r with fit := r.fit.advance.fit, last := some r.fit.advance.metrics }

theorem Run.steps_shown (shows : o.Shows p view) (n : Nat) (r : Run α σ) :
    Run.steps p n (r.view view) = ((Run.steps o n r).1.view view, (Run.steps o n r).2) := by
  induction n generalizing r with
  | zero => rfl
  | succ n ih =>
    have asked : p.shouldStop (r.view view).observer = _ := shows.shouldStop r.observer
    rw [Run.steps, Run.steps, asked]
    rcases o.shouldStop r.observer with ⟨stop, s⟩
    cases stop with
    | true => rfl
    | false =>
      exact (congrArg (Run.steps p n) (step_shown shows { r with observer := s })).trans (ih _)

theorem Fit.run_shown (shows : o.Shows p view) (f : Fit α) (s : σ) :
    f.run p (view s) = (f.run o s).view view := by
  have steps : Run.steps p (f.settings.steps - f.stepsTaken) ⟨f, view s, none, #[]⟩ = _ :=
    Run.steps_shown shows (f.settings.steps - f.stepsTaken) ⟨f, s, none, #[]⟩
  rw [Fit.run, Fit.run, steps]
  exact congrArg
    (fun r : Run α τ => (⟨r.fit, r.observer, _, r.journal⟩ : Finished α τ))
    (Run.tell_shown shows _ _)

theorem Run.steps_keep (keeps : o.Keeps P) (n : Nat) {r : Run α σ} (h : P r.observer) :
    P (Run.steps o n r).1.observer := by
  induction n generalizing r with
  | zero => exact h
  | succ n ih =>
    have asked := keeps.shouldStop h
    rw [Run.steps]
    rcases answer : o.shouldStop r.observer with ⟨stop, s⟩
    rw [answer] at asked
    cases stop with
    | true => exact asked
    | false =>
      apply ih
      exact tells_keep keeps (Run.callsOf r.fit.advance) asked

theorem Fit.run_keeps (keeps : o.Keeps P) (f : Fit α) {s : σ} (h : P s) :
    P (f.run o s).observer := by
  have start : P (⟨f, s, none, #[]⟩ : Run α σ).observer := h
  exact keeps.receive _ (Run.steps_keep keeps (f.settings.steps - f.stepsTaken) start)

end

end RoadFlow
