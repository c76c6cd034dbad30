import RoadFlow.Proofs.Fit.Beginning
import RoadFlow.Proofs.Fit.Single
import RoadFlow.Proofs.Fit.Steps
import RoadFlow.Proofs.Matrix.Columns

/-!
# The best flows of a fit

A fit keeps the flows from which the first of the steps of least finite loss started. They are the
flows of that step before it moved them, and a fit that goes on from them measures what the step
told (`best_of_driven`).
-/

namespace RoadFlow.Fit

variable {α β : Type} [Scalar α] [Scalar β] [Widens α β]

variable {m : AssignmentMatrix} {t : Target α} {c : FitSettings α} {f g fresh : Fit α}

/-! ## Going on from a snapshot -/

/-- A fit of a matrix and a target, with a row for each pair and an addend if there is to be one,
and no flow that cutting off would change. -/
structure Sound (m : AssignmentMatrix) (t : Target α) (c : FitSettings α) (f : Fit α) : Prop where
  matrix : f.matrix = m
  sensors : f.sensors = Sensor.all m t
  width : f.pairs.size = m.width
  cut : ∀ row ∈ f.pairs, row.values.map Scalar.atLeastZero = row.values
  bias : f.bias.isSome = c.useBias

/-- A snapshot shows the matrix, the sensors, the parameters and the number of steps. -/
theorem current_congr (matrix : g.matrix = f.matrix) (sensors : g.sensors = f.sensors)
    (flows : g.flows = f.flows) (addend : g.addend = f.addend)
    (stepsTaken : g.stepsTaken = f.stepsTaken) : g.current = f.current := by
  have residuals : g.residuals = f.residuals := by
    rw [Fit.residuals, Fit.residuals, sensors, flows, addend]
  have gridOf {a b : Array (Hourly α)} (h : a = b) :
      (⟨a.size, hoursPerDay, ⟨a, rfl⟩⟩ : Grid α) = ⟨b.size, hoursPerDay, ⟨b, rfl⟩⟩ := by
    subst h
    rfl
  have grid : g.grid = f.grid := gridOf flows
  simp only [current, snapshot, metricsOf, matrix, residuals, grid, addend, stepsTaken]

theorem Sound.resumedFlows (sound : f.Sound m t c) :
    Fit.resumedFlows m f.current = .ok f.flows := by
  have size : f.flows.size = m.width := by
    rw [flows, Array.size_map, sound.width]
  have same : f.flows.map (fun row => row.map Scalar.atLeastZero) = f.flows := by
    rw [flows, Array.map_map]
    exact Array.map_congr_left fun row mem => sound.cut row mem
  have rows : f.current.pairs.rowsOfWidth? hoursPerDay = some f.flows := rfl
  rw [Fit.resumedFlows, rows]
  simp [size, same]

theorem Sound.resumedBias (sound : f.Sound m t c) :
    Fit.resumedBias c f.current.bias = .ok f.addend := by
  have carried : f.current.bias = f.addend.map (·.toArray) := rfl
  have same := sound.bias
  rw [carried, addend]
  unfold Fit.resumedBias
  cases held : f.bias with
  | none =>
    rw [held] at same
    simp [← same]
  | some row =>
    rw [held] at same
    have size : row.values.toArray.size = hoursPerDay := row.values.size_toArray
    simp only [← same, Option.isSome_some, Bool.not_true, Bool.false_eq_true, if_false,
      Option.map_some, hourlyBias]
    rw [dif_pos size]
    rfl

/-- Going on from a snapshot measures again what the snapshot says. -/
theorem Sound.resume (sound : f.Sound m t c) (fine : inputFault? m t c = none) :
    ∃ g, Fit.resume m t c f.current = .ok g ∧ g.current = f.current := by
  have clusters : f.current.clusterCount = m.clusterCount := by
    rw [← sound.matrix]
    rfl
  exact ⟨_, resume_eq_ok.mpr
      ⟨fine, clusters, _, sound.resumedFlows, _, sound.resumedBias, rfl⟩,
    current_congr sound.matrix.symm sound.sensors.symm flows_ofParts addend_ofParts rfl⟩

/-! ## Starting and stepping -/

theorem mem_unitDraws {n : Nat} {s : Random.Stream} {x : α} (h : x ∈ unitDraws n s) :
    ∃ bits, x = unit bits := by
  induction n generalizing s with
  | zero => cases h
  | succ n ih =>
    rcases List.mem_cons.mp h with rfl | later
    · exact ⟨_, rfl⟩
    · exact ih later

variable [Scalar.Lawful α]

theorem cut_firstFlows {seed : UInt64} {width : Nat} {row : Hourly α}
    (h : row ∈ firstFlows seed width) : row.map Scalar.atLeastZero = row := by
  obtain ⟨c, rfl⟩ := Array.mem_ofFn.mp h
  let draws : List α := unitDraws (width * hoursPerDay) (.ofSeed seed)
  have drawn (i : Nat) : Scalar.atLeastZero (draws[i]?.getD 0) = draws[i]?.getD 0 := by
    cases found : draws[i]? with
    -- there are draws for all pairs and hours, but a missing one would be zero
    | none => exact Scalar.Lawful.cut_zero
    | some x =>
      obtain ⟨bits, rfl⟩ := mem_unitDraws (List.mem_of_getElem? found)
      exact Scalar.Lawful.cut_unit bits
  ext i hi
  simpa [draws] using drawn _

theorem start_sound (started : Fit.start m t c = .ok fresh) :
    fresh.Sound m t c ∧ inputFault? m t c = none ∧ fresh.stepsTaken = 0 ∧ fresh.best = none := by
  obtain ⟨fine, rfl⟩ := start_eq_ok.mp started
  refine ⟨⟨rfl, rfl, ?_, ?_, ?_⟩, fine, rfl, rfl⟩
  · simp [ofParts, firstFlows]
  · intro row mem
    obtain ⟨values, drawn, rfl⟩ := Array.mem_map.mp mem
    exact cut_firstFlows drawn
  · cases c.useBias <;> rfl

theorem Sound.advance (sound : f.Sound m t c) : f.advance.fit.Sound m t c := by
  obtain ⟨matrix, sensors, width, -, bias⟩ := sound
  refine ⟨matrix, sensors, ?_, ?_, ?_⟩
  · rw [← width]
    exact Array.size_mapIdx
  · intro row mem
    obtain ⟨i, hi, rfl⟩ := Array.mem_mapIdx.mp mem
    simp [FittedRow.cut, Vector.map_map, Function.comp_def, Scalar.Lawful.cut_cut]
  · rw [← bias]
    exact Option.isSome_map

/-! ## The least loss -/

/-- A snapshot of the first step of least finite loss among those that were told, as it was before
the step moved its parameters. -/
structure Leads (fresh : Fit α) (told : List (Metrics α)) (b : Flows α) : Prop where
  measured : told[b.step]? = some ⟨b.step, b.loss, b.mad⟩
  finite : Scalar.isFinite b.loss = true
  least : ∀ x ∈ told, Scalar.isFinite x.loss = true → Scalar.lt x.loss b.loss = false
  first : ∀ i < b.step, ∀ x, told[i]? = some x → Scalar.isFinite x.loss = true →
    Scalar.lt b.loss x.loss = true
  entered : b = (fresh.advanceMany b.step).1.current

/-- A fit that took the steps that were told, with the best of them. -/
structure Tracks (fresh f : Fit α) (told : List (Metrics α)) : Prop where
  taken : fresh.advanceMany told.length = (f, told)
  count : f.stepsTaken = told.length
  none_iff : f.best = none ↔ ∀ x ∈ told, Scalar.isFinite x.loss = false
  leads : ∀ b, f.best = some b → Leads fresh told b

variable {told : List (Metrics α)} {b : Flows α}

omit [Scalar.Lawful α] in
/-- A step that is not better leaves the lead to the best so far. -/
theorem Leads.keep (leads : Leads fresh told b) {x : Metrics α}
    (worse : Scalar.isFinite x.loss = true → Scalar.lt x.loss b.loss = false) :
    Leads fresh (told ++ [x]) b := by
  have place : b.step < told.length := (List.getElem?_eq_some_iff.mp leads.measured).1
  refine ⟨?_, leads.finite, ?_, ?_, leads.entered⟩
  · rw [List.getElem?_append_left place, leads.measured]
  · intro y mem
    rcases List.mem_append.mp mem with old | new
    · exact leads.least y old
    · rw [List.mem_singleton.mp new]
      exact worse
  · intro i hi y
    rw [List.getElem?_append_left (Nat.lt_trans hi place)]
    exact leads.first i hi y

/-- A step below all finite losses takes the lead. -/
theorem Leads.take (taken : fresh.advanceMany told.length = (f, told))
    (count : f.stepsTaken = told.length) (finite : Scalar.isFinite f.current.loss = true)
    (below : ∀ x ∈ told, Scalar.isFinite x.loss = true → Scalar.lt f.current.loss x.loss = true) :
    Leads fresh (told ++ [f.advance.metrics]) f.current := by
  have step : f.current.step = told.length := count
  refine ⟨?_, finite, ?_, ?_, ?_⟩
  · rw [step, List.getElem?_append_right (Nat.le_refl _), Nat.sub_self, ← step]
    rfl
  · intro x mem finite'
    rcases List.mem_append.mp mem with old | new
    · exact Scalar.Lawful.asymm finite finite' (below x old finite')
    · rw [List.mem_singleton.mp new]
      exact Scalar.Lawful.irrefl finite
  · intro i hi x found
    rw [step] at hi
    rw [List.getElem?_append_left hi] at found
    exact below x (List.mem_of_getElem? found)
  · rw [step, taken]

/-- A better loss is below all finite ones before it. -/
theorem Tracks.below (tracks : Tracks fresh f told) {loss : α} (better : f.improves loss = true) :
    Scalar.isFinite loss = true ∧
      ∀ x ∈ told, Scalar.isFinite x.loss = true → Scalar.lt loss x.loss = true := by
  rw [improves, Bool.and_eq_true] at better
  obtain ⟨finite, below⟩ := better
  refine ⟨finite, fun x mem finite' => ?_⟩
  cases found : f.best with
  | none => simp [tracks.none_iff.mp found x mem] at finite'
  | some b =>
    rw [found, Option.all_some] at below
    have leads := tracks.leads b found
    -- no finite loss is below the best, so what is below the best is below all of them
    rcases Scalar.Lawful.between finite finite' leads.finite below with lower | higher
    · exact lower
    · rw [leads.least x mem finite'] at higher
      cases higher

omit [Scalar.Lawful α] in
/-- A finite loss that is no better has a best one before it. -/
theorem worse_of_improves {loss : α} (worse : f.improves loss = false)
    (finite : Scalar.isFinite loss = true) :
    ∃ b, f.best = some b ∧ Scalar.lt loss b.loss = false := by
  rw [improves, finite, Bool.true_and] at worse
  cases found : f.best with
  | none => simp [found] at worse
  | some b =>
    rw [found, Option.all_some] at worse
    exact ⟨b, rfl, worse⟩

theorem Tracks.advance (tracks : Tracks fresh f told) :
    Tracks fresh f.advance.fit (told ++ [f.advance.metrics]) := by
  have taken : fresh.advanceMany (told ++ [f.advance.metrics]).length =
      (f.advance.fit, told ++ [f.advance.metrics]) := by
    rw [List.length_append, List.length_singleton, advanceMany_succ, tracks.taken]
  have count : f.advance.fit.stepsTaken = (told ++ [f.advance.metrics]).length := by
    rw [List.length_append, ← tracks.count]
    rfl
  have best : f.advance.fit.best =
      if f.improves f.current.loss then some f.current else f.best := rfl
  cases better : f.improves f.current.loss with
  | true =>
    rw [better, if_pos rfl] at best
    obtain ⟨finite, below⟩ := tracks.below better
    refine ⟨taken, count, ?_, ?_⟩
    · have last : f.advance.metrics ∈ told ++ [f.advance.metrics] := by simp
      rw [best]
      constructor
      · intro empty
        cases empty
      · intro infinite
        have contrary : Scalar.isFinite f.current.loss = false := infinite _ last
        rw [finite] at contrary
        cases contrary
    · rw [best]
      rintro b ⟨⟩
      exact Leads.take tracks.taken tracks.count finite below
  | false =>
    rw [better, if_neg Bool.false_ne_true] at best
    refine ⟨taken, count, ?_, ?_⟩
    · rw [best, tracks.none_iff]
      refine ⟨fun infinite x mem => ?_,
        fun infinite x mem => infinite x (List.mem_append_left _ mem)⟩
      rcases List.mem_append.mp mem with old | new
      · exact infinite x old
      · rw [List.mem_singleton.mp new, ← Bool.not_eq_true]
        intro finite
        obtain ⟨b, found, -⟩ := worse_of_improves better finite
        rw [tracks.none_iff.mpr infinite] at found
        cases found
    · rw [best]
      intro b found
      refine (tracks.leads b found).keep fun finite => ?_
      obtain ⟨b', found', above⟩ := worse_of_improves better finite
      cases found.symm.trans found'
      exact above

/-- From a fresh fit on, steps keep track of the best of them. -/
theorem tracks_advanceMany (count : fresh.stepsTaken = 0) (empty : fresh.best = none) (n : Nat) :
    Tracks fresh (fresh.advanceMany n).1 (fresh.advanceMany n).2 := by
  induction n with
  | zero => exact ⟨rfl, count, by simp [advanceMany, empty], by simp [advanceMany, empty]⟩
  | succ n ih =>
    rw [advanceMany_succ]
    exact ih.advance

theorem Sound.advanceMany (sound : f.Sound m t c) (n : Nat) :
    (f.advanceMany n).1.Sound m t c := by
  induction n with
  | zero => exact sound
  | succ n ih =>
    rw [advanceMany_succ]
    exact ih.advance

end RoadFlow.Fit

namespace RoadFlow

/-- However a fresh fit is driven, it has no best flows as long as no loss was finite. After that it
has those from which the first step of least finite loss started, and going on from them measures
the same loss and the same mean absolute difference again. -/
theorem best_of_driven {m : AssignmentMatrix} {t : Target Float32} {c : FitSettings Float32}
    {fresh f : Fit Float32} {told : List (Metrics Float32)} (started : Fit.start m t c = .ok fresh)
    (driven : Driven fresh told f) :
    (f.best = none ↔ ∀ x ∈ told, x.loss.isFinite = false) ∧
    ∀ b, f.best = some b →
      Fit.Leads fresh told b ∧
      b.pairs = (fresh.advanceMany b.step).1.grid ∧
      b.bias = (fresh.advanceMany b.step).1.addend.map (·.toArray) ∧
      ∃ g, Fit.resume m t c b = .ok g ∧ g.current.loss = b.loss ∧ g.current.mad = b.mad := by
  obtain ⟨sound, fine, count, empty⟩ := Fit.start_sound started
  have tracks := Fit.tracks_advanceMany count empty told.length
  rw [driven.advanceMany_eq] at tracks
  refine ⟨tracks.none_iff, fun b best => ?_⟩
  have leads := tracks.leads b best
  have pairs : b.pairs = (fresh.advanceMany b.step).1.grid := congrArg Flows.pairs leads.entered
  have bias : b.bias = (fresh.advanceMany b.step).1.addend.map (·.toArray) :=
    congrArg Flows.bias leads.entered
  obtain ⟨g, resumed, same⟩ := (sound.advanceMany b.step).resume fine
  rw [← leads.entered] at resumed same
  exact ⟨leads, pairs, bias, g, resumed, congrArg Flows.loss same, congrArg Flows.mad same⟩

/-- Three edges, one of them with counts. -/
def Target.sample : Target Float32 := ⟨Array.replicate 3 (Grid.zeros hoursPerDay), [⟨1⟩]⟩

theorem Fit.inputFault?_sample : Fit.inputFault? .sample .sample .standard = none := by
  decide +kernel

theorem Fit.start_sample : ∃ fresh, Fit.start .sample .sample .standard = .ok fresh :=
  ⟨_, by rw [Fit.start, inputFault?_sample]⟩

theorem best_of_driven_sample :
    ∃ fresh told f, Fit.start .sample .sample .standard = .ok fresh ∧
      f = (fresh.advance.fit.run .silent ()).fit ∧ Driven fresh told f ∧
      (f.best = none ↔ ∀ x ∈ told, x.loss.isFinite = false) ∧
      ∀ b, f.best = some b → Fit.Leads fresh told b ∧
        ∃ g, Fit.resume .sample .sample .standard b = .ok g ∧
          g.current.loss = b.loss ∧ g.current.mad = b.mad := by
  obtain ⟨fresh, started⟩ := Fit.start_sample
  have driven := (@Driven.start _ _ _ _ _ fresh).step.run .silent ()
  obtain ⟨none_iff, best⟩ := best_of_driven started driven
  refine ⟨fresh, _, _, started, rfl, driven, none_iff, fun b found => ?_⟩
  obtain ⟨leads, -, -, resumed⟩ := best b found
  exact ⟨leads, resumed⟩

end RoadFlow
