import RoadFlow.Proofs.Fit.Beginning
import RoadFlow.Proofs.Fit.Best
import RoadFlow.Proofs.Hour

/-!
# Hours are fitted side by side

What a fit holds of one hour is a fit of its own: it goes from step to step by itself
(`Fit.hour_advance`). So counts that differ in one hour alone leave the parameters of the other
hours, and the optimisers' moments there, as they are (`other_hours_unchanged`).
-/

namespace RoadFlow

variable {α β : Type}

/-! ## The fit of one hour -/

/-- A number under fit, with its optimiser. -/
structure FittedCell (α : Type) where
  value : α
  moments : Moments α
  settings : FitSettings α
  updates : Nat

def FittedRow.hour (h : Hour) (row : FittedRow α) : FittedCell α :=
  ⟨h.entry row.values, h.entry row.adam.moments, row.adam.settings, row.adam.updates⟩

/-- A sensor in one hour. -/
structure SensorCell (α : Type) where
  columns : List Nat
  count : α

def Sensor.hour (h : Hour) (s : Sensor α) : SensorCell α := ⟨s.columns, h.entry s.counts⟩

/-- What a fit holds of one hour. -/
structure HourFit (α : Type) where
  sensors : List (SensorCell α)
  passed : Array (List Nat)
  pairs : Array (FittedCell α)
  bias : Option (FittedCell α)

def Fit.hour (h : Hour) (f : Fit α) : HourFit α :=
  ⟨f.sensors.map (·.hour h), f.passed, f.pairs.map (·.hour h), f.bias.map (·.hour h)⟩

variable [Scalar α] [Scalar β] [Widens α β]

namespace FittedCell

def move (cell : FittedCell α) (gradient : α) : FittedCell α :=
  let moments := cell.moments.absorb cell.settings gradient
  let correction := Adam.correction cell.settings (cell.updates + 1)
  { cell with
    value := moments.move cell.settings correction cell.value
    moments
    updates := cell.updates + 1 }

def cut (cell : FittedCell α) : FittedCell α :=
  { cell with value := Scalar.atLeastZero cell.value }

end FittedCell

/-- The sum of the chosen ones of some values, added up in order from zero. -/
def sumOf (values : Array α) (chosen : List Nat) : α :=
  chosen.foldl (fun sum r => sum + values.getD r 0) 0

/-- What passes a sensor in excess of its count. -/
def SensorCell.residual (pairs : Array α) (bias : Option α) (s : SensorCell α) : α :=
  let sum := sumOf pairs s.columns
  (bias.elim sum fun addend => sum + addend) - s.count

namespace HourFit

def residuals (f : HourFit α) : List α :=
  f.sensors.map (·.residual (f.pairs.map (·.value)) (f.bias.map (·.value)))

def slopes (f : HourFit α) : Array α :=
  let scale : α := Widens.narrow (Scalar.ofNat 2 / Scalar.ofNat (f.sensors.length * hoursPerDay))
  (f.residuals.map (· * scale)).toArray

def advance (f : HourFit α) : HourFit α :=
  { f with
    pairs := f.pairs.mapIdx fun c cell => (cell.move (sumOf f.slopes (f.passed.getD c []))).cut
    bias := f.bias.map fun cell => cell.move (f.slopes.foldl (· + ·) 0) }

end HourFit

/-! ## An hour by itself -/

section

/-- One of some parameters, with its part of their optimiser. -/
def Adam.cell {size : Nat} (a : Adam α size) (parameters : Vector α size) (i : Fin size) :
    FittedCell α :=
  ⟨parameters.get i, a.moments.get i, a.settings, a.updates⟩

/-- An update moves each parameter by itself. -/
theorem Adam.cell_step {size : Nat} (a : Adam α size) (parameters gradients : Vector α size)
    (i : Fin size) :
    (a.step parameters gradients).2.cell (a.step parameters gradients).1 i =
      (a.cell parameters i).move (gradients.get i) := by
  simp [cell, FittedCell.move, step, absorb, Vector.get_eq_getElem]

variable (h : Hour)

theorem FittedRow.hour_move (row : FittedRow α) (gradient : Hourly α) :
    (row.move gradient).hour h = (row.hour h).move (h.entry gradient) :=
  row.adam.cell_step row.values gradient ⟨h.index, h.index_lt⟩

theorem FittedRow.hour_cut (row : FittedRow α) : row.cut.hour h = (row.hour h).cut := by
  simp [hour, cut, FittedCell.cut]

theorem Grid.entry_sumChosen (rows : Array (Hourly α)) (chosen : List Nat) :
    h.entry (sumChosen rows chosen) = sumOf (rows.map h.entry) chosen := by
  rw [sumChosen, Hour.entry_ofFn, sumOf]
  congr 1
  funext sum r
  rw [Array.getD_eq_getD_getElem?, Array.getElem?_map]
  by_cases inside : r < rows.size
  · simp [inside, Hour.entry, Vector.get_eq_getElem]
  · simp [inside]

theorem Sensor.entry_residual (pairs : Array (Hourly α)) (bias : Option (Hourly α))
    (s : Sensor α) :
    h.entry (s.residual pairs bias) =
      (s.hour h).residual (pairs.map h.entry) (bias.map h.entry) := by
  cases bias <;>
    simp [residual, prediction, SensorCell.residual, Sensor.hour, Grid.entry_sumChosen,
      Grid.addRows]

theorem Fit.entry_residuals (f : Fit α) :
    f.residuals.map h.entry = (f.hour h).residuals := by
  have values (rows : Array (FittedRow α)) :
      (rows.map (·.values)).map h.entry = (rows.map (·.hour h)).map (·.value) := by
    simp only [Array.map_map]
    rfl
  have addend : (f.bias.map (·.values)).map h.entry = (f.bias.map (·.hour h)).map (·.value) := by
    simp only [Option.map_map]
    rfl
  simp only [residuals, HourFit.residuals, hour, flows, Fit.addend, List.map_map, values, addend,
    Function.comp_def, Sensor.entry_residual]

theorem Fit.entry_slopes (f : Fit α) :
    (Deviation.slopes f.residuals).map h.entry = (f.hour h).slopes := by
  have count : (f.hour h).sensors.length = f.residuals.length := by
    simp [hour, residuals]
  simp only [Deviation.slopes, HourFit.slopes, Deviation.cellCount, count, ← entry_residuals,
    List.map_toArray, List.map_map, Function.comp_def, Hour.entry_map]

theorem Deviation.entry_biasGradient (slopes : Array (Hourly α)) :
    h.entry (biasGradient slopes) = (slopes.map h.entry).foldl (· + ·) 0 := by
  rw [biasGradient, ← Array.foldl_toList, ← Array.foldl_toList, Array.toList_map]
  have sums (rows : List (Hourly α)) (start : Hourly α) :
      h.entry (rows.foldl Grid.addRows start) =
        (rows.map h.entry).foldl (· + ·) (h.entry start) := by
    induction rows generalizing start with
    | nil => rfl
    | cons row rows ih =>
      rw [List.foldl_cons, ih, List.map_cons, List.foldl_cons, Grid.addRows, Hour.entry_zipWith]
  rw [sums, Grid.zeros, Hour.entry_replicate]

/-- A step takes each hour along by itself. -/
theorem Fit.hour_advance (f : Fit α) : f.advance.fit.hour h = (f.hour h).advance := by
  have slopes := f.entry_slopes h
  have pairs : f.advance.fit.pairs.map (·.hour h) = (f.hour h).advance.pairs := by
    refine Array.ext_getElem? fun c => ?_
    simp only [Fit.advance, HourFit.advance, Array.getElem?_map, Array.getElem?_mapIdx,
      Option.map_map, Function.comp_def, FittedRow.hour_cut, FittedRow.hour_move,
      Deviation.pairGradient, Grid.entry_sumChosen, slopes]
    simp only [hour, Array.getElem?_map, Option.map_map, Function.comp_def]
  have bias : f.advance.fit.bias.map (·.hour h) = (f.hour h).advance.bias := by
    simp only [Fit.advance, HourFit.advance, Option.map_map, Function.comp_def,
      FittedRow.hour_move, Deviation.entry_biasGradient, slopes]
    simp only [hour, Option.map_map, Function.comp_def]
  rw [hour, pairs, bias]
  rfl

theorem Fit.hour_advanceMany (n : Nat) (f : Fit α) :
    (f.advanceMany n).1.hour h = HourFit.advance^[n] (f.hour h) := by
  induction n generalizing f with
  | zero => rfl
  | succ n ih => rw [Function.iterate_succ_apply, ← hour_advance, ← ih f.advance.fit, advanceMany]

end

/-! ## Counts that differ in one hour -/

variable {m : AssignmentMatrix} {t t' : Target α} {c : FitSettings α} {h : Hour}

/-- Targets with the same sensors, whose counts differ in one hour at most. -/
structure Target.DifferAt (h : Hour) (t t' : Target α) : Prop where
  sensors : t'.sensors = t.sensors
  counts : ∀ e ∈ t.sensors, ∀ other ≠ h, t'.count e other = t.count e other

theorem Fit.hour_ofParts (differ : t.DifferAt h t') {other : Hour} (apart : other ≠ h)
    (pairs : Array (Hourly α)) (bias : Option (Hourly α)) (stepsTaken stepsTaken' : Nat)
    (best best' : Option (Flows α)) :
    (ofParts m t' c pairs bias stepsTaken' best').hour other =
      (ofParts m t c pairs bias stepsTaken best).hour other := by
  have columns : (Sensor.all m t').map (·.columns) = (Sensor.all m t).map (·.columns) := by
    simp only [Sensor.all, List.map_map, differ.sensors]
    rfl
  have cells : (Sensor.all m t').map (·.hour other) = (Sensor.all m t).map (·.hour other) := by
    simp only [Sensor.all, List.map_map, differ.sensors]
    refine List.map_congr_left fun e mem => ?_
    exact congrArg (SensorCell.mk _) (differ.counts e mem other apart)
  simp only [ofParts, hour, Sensor.passed, columns, cells]

structure Fit.SameParameters (f g : Fit α) : Prop where
  flows : g.flows = f.flows
  addend : g.addend = f.addend

/-- A fit that starts over one of the targets starts over the other, with the same parameters. -/
theorem Fit.start_elsewhere (differ : t.DifferAt h t') (rows : t'.edgeCount = t.edgeCount)
    {f : Fit α} (started : Fit.start m t c = .ok f) :
    ∃ g, Fit.start m t' c = .ok g ∧ f.SameParameters g := by
  obtain ⟨fine, rfl⟩ := start_eq_ok.mp started
  rw [← inputFault?_congr rfl rows differ.sensors] at fine
  exact ⟨_, start_eq_ok.mpr ⟨fine, rfl⟩, rfl, rfl⟩

theorem Fit.resume_elsewhere (differ : t.DifferAt h t') (rows : t'.edgeCount = t.edgeCount)
    {f : Fit α} {checkpoint : Flows α} (resumed : Fit.resume m t c checkpoint = .ok f) :
    ∃ g, Fit.resume m t' c checkpoint = .ok g ∧ f.SameParameters g := by
  obtain ⟨fine, clusters, pairs, flows, bias, addend, rfl⟩ := resume_eq_ok.mp resumed
  rw [← inputFault?_congr rfl rows differ.sensors] at fine
  exact ⟨_, resume_eq_ok.mpr ⟨fine, clusters, pairs, flows, bias, addend, rfl⟩, rfl, rfl⟩

/-- Fits over targets whose counts differ in one hour, begun with the same parameters, hold the
same of every other hour after any number of steps: its parameters and their moments. A fit that
begins over one of the targets begins so over the other. -/
theorem other_hours_unchanged (differ : t.DifferAt h t') :
    (∀ f g : Fit α, f.Begun m t c → g.Begun m t' c → f.SameParameters g →
      ∀ n, ∀ other ≠ h, (g.advanceMany n).1.hour other = (f.advanceMany n).1.hour other) ∧
    (t'.edgeCount = t.edgeCount →
      (∀ f, Fit.start m t c = .ok f → ∃ g, Fit.start m t' c = .ok g ∧ f.SameParameters g) ∧
      ∀ checkpoint f, Fit.resume m t c checkpoint = .ok f →
        ∃ g, Fit.resume m t' c checkpoint = .ok g ∧ f.SameParameters g) := by
  refine ⟨fun f g begun begun' same n other apart => ?_, fun rows =>
    ⟨fun f started => Fit.start_elsewhere differ rows started,
      fun checkpoint f resumed => Fit.resume_elsewhere differ rows resumed⟩⟩
  have start : g.hour other = f.hour other := by
    rw [begun.eq_ofParts, begun'.eq_ofParts, same.flows, same.addend]
    exact Fit.hour_ofParts differ apart ..
  rw [Fit.hour_advanceMany, Fit.hour_advanceMany, start]

/-- The sample with traffic at eight in the morning. -/
def Target.morning : Target Float32 :=
  ⟨Array.replicate 3 (.ofFn fun h => if h.val = 8 then 1 else 0), [⟨1⟩]⟩

theorem Target.sample_differAt : Target.sample.DifferAt ⟨8, by decide⟩ .morning where
  sensors := rfl
  counts := by
    intro e mem other apart
    obtain rfl := List.mem_singleton.mp mem
    have early : ¬ other.index = 8 := by
      intro eight
      exact apart (by cases other; cases eight; rfl)
    have shown : Target.morning.count ⟨1⟩ other = if other.index = 8 then 1 else 0 :=
      other.entry_ofFn fun h => if h.val = 8 then (1 : Float32) else 0
    rw [shown, if_neg early]
    exact (other.entry_replicate (0 : Float32)).symm

theorem other_hours_unchanged_sample :
    ∃ f g, Fit.start .sample .sample .standard = .ok f ∧
      Fit.start .sample .morning .standard = .ok g ∧
      ∀ n, ∀ other ≠ ⟨8, by decide⟩,
        (g.advanceMany n).1.hour other = (f.advanceMany n).1.hour other := by
  obtain ⟨f, started⟩ := Fit.start_sample
  obtain ⟨unchanged, begins⟩ := other_hours_unchanged (m := .sample) (c := .standard)
    Target.sample_differAt
  have rows : Target.morning.edgeCount = Target.sample.edgeCount := Array.size_replicate
  obtain ⟨g, started', same⟩ := (begins rows).1 f started
  exact ⟨f, g, started, started', unchanged f g (.start started) (.start started') same⟩

end RoadFlow
