import RoadFlow.Proofs.Fit.Evaluation
import RoadFlow.Proofs.Matrix.Scatter

/-!
# Fits with checks

A fit that has begun finds everything that it looks up, however it is driven (`Fit.InRange`). Here
its steps, its runs and its predictions are put down once more with a check on every index and
divisor. None of the checks ever fails (`begun_never_fail`).
-/

namespace RoadFlow

variable {α β σ : Type} [Scalar α] [Scalar β] [Widens α β]

/-! ## Checked indices and divisors -/

namespace Fit

/-- What passes a sensor in excess of the counts of its edge. -/
def residualChecked (f : Fit α) (s : Sensor α) (e : EdgeId) : Option (Hourly α) := do
  let sum ← Grid.gather f.flows s.columns
  let counts ← f.target.counts[e.index]?
  let prediction :=
    match f.addend with
    | some addend => Grid.addRows sum addend
    | none => sum
  some (prediction.zipWith (· - ·) counts)

/-- `residuals`, if there is an hour of a sensor over which they have a mean. -/
def residualsChecked (f : Fit α) : Option (List (Hourly α)) :=
  if f.target.sensors.length * hoursPerDay = 0 then none
  else (f.sensors.zip f.target.sensors).mapM fun (s, e) => f.residualChecked s e

/-- The gradients of all pairs, by deposits of the slope of each sensor at the pairs that pass
it. -/
def gradientsChecked (f : Fit α) (slopes : Array (Hourly α)) : Option (Array (Hourly α)) :=
  Grid.scatter (.replicate f.matrix.width (Grid.zeros hoursPerDay))
    ((f.sensors.map (·.columns)).zipWith Grid.Deposit.mk slopes.toList)

/-- The pairs moved and cut off, if there is a gradient for each of them. -/
def movedChecked (f : Fit α) (gradients : Array (Hourly α)) : Option (Array (FittedRow α)) :=
  if gradients.size ≠ f.pairs.size then none
  else some (f.pairs.zipWith (fun row gradient => (row.move gradient).cut) gradients)

def advanceChecked (f : Fit α) : Option (Advance α) := do
  let residuals ← f.residualsChecked
  let metrics := f.metricsOf residuals
  let improved := f.improves metrics.loss
  let slopes := Deviation.slopes residuals
  let gradients ← f.gradientsChecked slopes
  let pairs ← f.movedChecked gradients
  return {
    fit := { f with
      pairs
      bias := f.bias.map fun row => row.move (Deviation.biasGradient slopes)
      stepsTaken := f.stepsTaken + 1
      best := if improved then some (f.snapshot metrics) else f.best }
    metrics
    improved }

def currentChecked (f : Fit α) : Option (Flows α) := do
  let residuals ← f.residualsChecked
  some (f.snapshot (f.metricsOf residuals))

/-- `predict`, if there is a number of the addend for each column. -/
def predictChecked (f : Fit α) : Option (Except (FitFault α) (Grid α)) := do
  match ← f.matrix.timesChecked f.grid with
  | .error fault => some (.error (.matrix fault))
  | .ok edges =>
    match f.addend with
    | none => some (.ok edges)
    | some addend =>
      if addend.toArray.size ≠ edges.cols then none
      else some (.ok (Flows.addToColumns edges addend.toArray))

end Fit

namespace Run

/-- What is due on a step, if it can be divided by the interval of logged steps. -/
def callsChecked (a : Fit.Advance α) : Option (List (Call α)) :=
  if a.fit.settings.logInterval = 0 then none else some (callsOf a)

def stepChecked (o : Observer α σ) (r : Run α σ) : Option (Run α σ) := do
  let a ← r.fit.advanceChecked
  let calls ← callsChecked a
  some (calls.foldl (tell o) { r with fit := a.fit, last := some a.metrics })

def stepsChecked (o : Observer α σ) : Nat → Run α σ → Option (Run α σ × Bool)
  | 0, r => some (r, false)
  | n + 1, r =>
    match o.shouldStop r.observer with
    | (true, observer) =>
      some ({ r with observer, journal := r.journal.push (cancelRecord r.fit.stepsTaken) }, true)
    | (false, observer) => do stepsChecked o n (← stepChecked o { r with observer })

end Run

def Fit.runChecked (f : Fit α) (o : Observer α σ) (observer : σ) : Option (Finished α σ) := do
  let (r, cancelled) ←
    Run.stepsChecked o (f.settings.steps - f.stepsTaken) ⟨f, observer, none, #[]⟩
  let summary := r.summary f.stepsTaken cancelled
  let r := r.tell o (.fitEnd summary r.fit.best)
  some ⟨r.fit, r.observer, summary, r.journal⟩

/-! ## What a fit keeps -/

namespace Fit

variable {m : AssignmentMatrix} {t : Target α} {c : FitSettings α} {f fresh : Fit α}

/-- A fit of some inputs, which measures the flows of the matrix against the target. -/
structure Intact (m : AssignmentMatrix) (t : Target α) (c : FitSettings α) (f : Fit α) : Prop where
  measures : f.Measures m t
  target : f.target = t
  settings : f.settings = c
  bias : f.bias.isSome = c.useBias

theorem Begun.intact [Scalar.Lawful α] (begun : f.Begun m t c) : f.Intact m t c := by
  have parts := begun.eq_ofParts
  refine ⟨begun.measures, ?_, ?_, begun.sound.bias⟩
  · rw [parts]
    rfl
  · rw [parts]
    rfl

theorem Intact.advance (intact : f.Intact m t c) : f.advance.fit.Intact m t c := by
  obtain ⟨measures, target, settings, bias⟩ := intact
  refine ⟨measures.advance, target, settings, ?_⟩
  rw [← bias]
  exact Option.isSome_map

theorem Intact.advanceMany (intact : f.Intact m t c) (n : Nat) :
    (f.advanceMany n).1.Intact m t c := by
  induction n with
  | zero => exact intact
  | succ n ih =>
    rw [advanceMany_succ]
    exact ih.advance

/-- All that a fit looks up and divides by. -/
structure InRange (m : AssignmentMatrix) (t : Target α) (c : FitSettings α) (f : Fit α) : Prop where
  matrix : f.matrix = m
  target : f.target = t
  settings : f.settings = c
  /-- The number of hours that a mean is taken over. -/
  cells : t.sensors.length * hoursPerDay ≠ 0
  logInterval : c.logInterval ≠ 0
  /-- There are counts and a row of the matrix for each sensor. -/
  sensors : ∀ e ∈ t.sensors, e.index < t.counts.size ∧ e.index < m.edgeCount
  /-- There is a column of the matrix for each pair, with edges of the matrix. -/
  columns : ∀ column < m.width, ∃ edges, m.columns[column]? = some edges ∧
    ∀ e ∈ edges, e.index < m.edgeCount
  lists : f.sensors.length = t.sensors.length
  passing : ∀ s ∈ f.sensors, ∀ column ∈ s.columns, column < m.width
  rows : f.grid.rows = m.width
  cols : f.grid.cols = hoursPerDay
  /-- There are moments for each flow and for each hour of the addend. -/
  moments : (f.pairs.toList.flatMap (·.adam.moments.toList)).length = m.width * hoursPerDay
  addend : f.addend.isSome = c.useBias
  hours : ∀ row ∈ f.bias, row.values.toArray.size = hoursPerDay ∧
    row.adam.moments.toArray.size = hoursPerDay

/-! ## No check fails -/

omit [Scalar β] [Widens α β] in
theorem cells_ne_zero (fine : inputFault? m t c = none) : t.sensors.length * hoursPerDay ≠ 0 := by
  obtain ⟨-, -, sensors⟩ := inputFault?_eq_none.mp fine
  simpa [hoursPerDay] using sensors

omit [Scalar β] [Widens α β] in
theorem logInterval_ne_zero (fine : inputFault? m t c = none) : c.logInterval ≠ 0 := by
  obtain ⟨accepted, -, -⟩ := inputFault?_eq_none.mp fine
  obtain ⟨-, -, -, -, positive⟩ := FitSettings.fault?_eq_none.mp accepted
  exact Nat.ne_of_gt positive

namespace Intact

variable (intact : f.Intact m t c) (fine : inputFault? m t c = none) (target : t.Valid)
  (valid : m.Valid)

include intact target

theorem sensors_eq : f.sensors = t.sensors.map fun e => ⟨m.columnsOf e, t.countsOf e⟩ :=
  intact.measures.sensors_eq target

theorem passing {s : Sensor α} (mem : s ∈ f.sensors) :
    s.columns.Nodup ∧ ∀ column ∈ s.columns, column < m.width := by
  rw [intact.sensors_eq target] at mem
  obtain ⟨e, -, rfl⟩ := List.mem_map.mp mem
  exact ⟨m.nodup_columnsOf e, fun column passes => List.mem_range.mp (List.mem_filter.mp passes).1⟩

theorem residualChecked_eq {e : EdgeId} (mem : e ∈ t.sensors) :
    f.residualChecked ⟨m.columnsOf e, t.countsOf e⟩ e = some (t.excess f.onEdge e) := by
  have size : f.flows.size = m.width := (Array.size_map ..).trans intact.measures.width
  have inside (column : Nat) (passes : column ∈ m.columnsOf e) : column < f.flows.size := by
    rw [size]
    exact List.mem_range.mp (List.mem_filter.mp passes).1
  have counts : f.target.counts[e.index]? = some (t.countsOf e) := by
    have held : e.index < t.counts.size := target.inside e mem
    rw [intact.target, Target.countsOf]
    simp [held]
  rw [residualChecked, Grid.gather_eq inside, counts, Target.excess, onEdge,
    intact.measures.matrix]
  cases f.addend <;> rfl

include fine in
theorem residualsChecked_eq : f.residualsChecked = some f.residuals := by
  have lookedUp : f.sensors.zip t.sensors =
      t.sensors.map fun e => (⟨m.columnsOf e, t.countsOf e⟩, e) := by
    rw [intact.sensors_eq target]
    exact (congrArg _ (List.map_id _).symm).trans List.zip_map'
  rw [residualsChecked, intact.target, if_neg (cells_ne_zero fine),
    intact.measures.residuals_eq target, lookedUp,
    List.mapM_map]
  exact mapM_eq_some fun e mem => intact.residualChecked_eq target mem

omit target in
/-- The slopes that are deposited at a pair are those of the sensors that it passes. -/
theorem depositedAt_slopes {column : Nat} (inside : column < m.width) :
    Grid.depositedAt ((f.sensors.map (·.columns)).zipWith Grid.Deposit.mk
      (Deviation.slopes f.residuals).toList) (Grid.zeros hoursPerDay) column =
        f.pairGradient column := by
  have size : (Deviation.slopes f.residuals).size = (f.sensors.map (·.columns)).length := by
    simp [Deviation.slopes, residuals]
  rw [Grid.depositedAt_zipWith size, pairGradient, Deviation.pairGradient, intact.measures.passed,
    Sensor.passed, Array.getD_eq_getD_getElem?, Incidence.getElem?_holders _ _ inside]
  simp

theorem gradientsChecked_eq :
    f.gradientsChecked (Deviation.slopes f.residuals) =
      some (.ofFn fun column : Fin m.width => f.pairGradient column) := by
  have lists {d : Grid.Deposit α hoursPerDay} (mem : d ∈ (f.sensors.map (·.columns)).zipWith
      Grid.Deposit.mk (Deviation.slopes f.residuals).toList) :
      d.places.Nodup ∧ ∀ column ∈ d.places, column < m.width := by
    rw [← List.map_uncurry_zip_eq_zipWith] at mem
    obtain ⟨⟨columns, row⟩, both, rfl⟩ := List.mem_map.mp mem
    obtain ⟨s, held, rfl⟩ := List.mem_map.mp (List.of_mem_zip both).1
    exact intact.passing target held
  rw [gradientsChecked, intact.measures.matrix, Grid.scatter_eq]
  · refine congrArg some (Array.ext_getElem? fun column => ?_)
    by_cases inside : column < m.width
    · simp [inside, intact.depositedAt_slopes inside]
    · simp [inside]
  · intro d mem column place
    rw [Array.size_replicate]
    exact (lists mem).2 column place
  · exact fun d mem => (lists mem).1

omit target in
theorem movedChecked_eq {gradient : Nat → Hourly α} :
    f.movedChecked (.ofFn fun column : Fin m.width => gradient column) =
      some (f.pairs.mapIdx fun column row => (row.move (gradient column)).cut) := by
  have size := intact.measures.width
  rw [movedChecked, if_neg (by simp [size])]
  refine congrArg some (Array.ext_getElem? fun column => ?_)
  by_cases inside : column < m.width
  · simp [inside, size]
  · simp [inside, size]

include fine

theorem advanceChecked_eq : f.advanceChecked = some f.advance := by
  rw [advanceChecked, intact.residualsChecked_eq fine target]
  simp only [Option.bind_eq_bind, Option.bind_some, intact.gradientsChecked_eq target,
    intact.movedChecked_eq]
  rfl

theorem currentChecked_eq : f.currentChecked = some f.current := by
  rw [currentChecked, intact.residualsChecked_eq fine target]
  rfl

omit target fine
include valid in
theorem predictChecked_eq : f.predictChecked = some f.predict := by
  have rows : ¬ f.grid.rows ≠ m.width :=
    not_not.mpr ((Array.size_map ..).trans intact.measures.width)
  rw [predictChecked, predict, Flows.predictWith, intact.measures.matrix,
    AssignmentMatrix.timesChecked_eq valid, AssignmentMatrix.times, if_neg rows]
  cases f.addend with
  | none => rfl
  | some addend => exact if_neg (not_not.mpr addend.size_toArray)

include fine target valid in
theorem inRange : f.InRange m t c where
  matrix := intact.measures.matrix
  target := intact.target
  settings := intact.settings
  cells := cells_ne_zero fine
  logInterval := logInterval_ne_zero fine
  sensors := by
    intro e mem
    have inside := target.inside e mem
    refine ⟨inside, ?_⟩
    rwa [← intact.measures.edgeCount]
  columns := fun column inside =>
    ⟨m.column column, valid.getElem?_columns inside, (valid.column column).2⟩
  lists := by simp [intact.sensors_eq target]
  passing := fun s mem => (intact.passing target mem).2
  rows := (Array.size_map ..).trans intact.measures.width
  cols := rfl
  moments := by simp [List.length_flatMap, intact.measures.width]
  addend := (Option.isSome_map ..).trans intact.bias
  hours := fun row _ => ⟨row.values.size_toArray, row.adam.moments.size_toArray⟩

end Intact

end Fit

/-! ## Runs -/

section

variable {m : AssignmentMatrix} {t : Target α} {c : FitSettings α}

theorem Run.stepChecked_eq (o : Observer α σ) {r : Run α σ} (intact : r.fit.Intact m t c)
    (fine : Fit.inputFault? m t c = none) (target : t.Valid) :
    stepChecked o r = some (step o r) := by
  have logged : ¬ r.fit.advance.fit.settings.logInterval = 0 := by
    rw [intact.advance.settings]
    exact Fit.logInterval_ne_zero fine
  rw [stepChecked, intact.advanceChecked_eq fine target, Option.bind_eq_bind, Option.bind_some,
    callsChecked, if_neg logged]
  rfl

theorem Run.stepsChecked_eq (o : Observer α σ) (n : Nat) {r : Run α σ}
    (intact : r.fit.Intact m t c) (fine : Fit.inputFault? m t c = none) (target : t.Valid) :
    stepsChecked o n r = some (steps o n r) := by
  induction n generalizing r with
  | zero => rfl
  | succ n ih =>
    rw [stepsChecked, steps]
    rcases o.shouldStop r.observer with ⟨stop, s⟩
    cases stop with
    | true => rfl
    | false =>
      let asked : Run α σ := { r with observer := s }
      have step : stepChecked o asked = some (asked.step o) :=
        stepChecked_eq o intact fine target
      have after : (asked.step o).fit.Intact m t c := by
        rw [(step_eq o asked).1]
        exact intact.advance
      exact (congrArg (· >>= stepsChecked o n) step).trans (ih after)

theorem Fit.runChecked_eq {f : Fit α} (o : Observer α σ) (s : σ) (intact : f.Intact m t c)
    (fine : Fit.inputFault? m t c = none) (target : t.Valid) :
    f.runChecked o s = some (f.run o s) := by
  have steps := Run.stepsChecked_eq o (f.settings.steps - f.stepsTaken)
    (r := ⟨f, s, none, #[]⟩) intact fine target
  rw [runChecked, steps]
  rfl

/-- With a check on every index and divisor a fit does what it does without, and its predictions
are not refused. -/
structure Fit.NeverFails (f : Fit α) : Prop where
  advance : f.advanceChecked = some f.advance
  run : ∀ {σ : Type} (o : Observer α σ) (s : σ), f.runChecked o s = some (f.run o s)
  current : f.currentChecked = some f.current
  predict : ∃ onEdges, f.predictChecked = some (.ok onEdges) ∧ f.predict = .ok onEdges

/-- A fit that has begun never fails, however it is driven: all that it looks up is there, and it
divides by nothing that is zero. -/
theorem begun_never_fail [Scalar.Lawful α] {f fresh : Fit α} {told : List (Metrics α)}
    (begun : fresh.Begun m t c) (driven : Driven fresh told f) (target : t.Valid)
    (valid : m.Valid) : f.InRange m t c ∧ f.NeverFails := by
  have fine := begun.fine
  have intact := begun.intact.advanceMany told.length
  rw [driven.advanceMany_eq] at intact
  have predicted := intact.measures.predict_eq
  refine ⟨intact.inRange fine target valid, intact.advanceChecked_eq fine target,
    fun o s => f.runChecked_eq o s intact fine target, intact.currentChecked_eq fine target,
    _, ?_, predicted⟩
  rw [intact.predictChecked_eq valid, predicted]

end

/-- A checkpoint that is not a number anywhere is no obstacle. -/
theorem begun_never_fail_sample :
    ∃ fresh, Fit.resume .sample .sample .standard (.sample (0 / 0) (0 / 0)) = .ok fresh ∧
      Driven fresh [fresh.advance.metrics] fresh.advance.fit ∧
      fresh.advance.fit.InRange .sample .sample .standard ∧ fresh.advance.fit.NeverFails := by
  obtain ⟨fresh, resumed⟩ := Fit.resume_sample (0 / 0) (0 / 0)
  have driven := (Driven.start : Driven fresh [] fresh).step
  obtain ⟨inRange, neverFails⟩ := begun_never_fail (.resume _ resumed) driven Target.sample_valid
    AssignmentMatrix.sample_valid
  exact ⟨fresh, resumed, driven, inRange, neverFails⟩

end RoadFlow
