import RoadFlow.Proofs.Fit.Differences

/-!
# Flows under fit

Every step cuts the flows off at zero, so none is ever negative or not a number, whatever the
gradients were (`live_flows_nonneg`). In exact arithmetic the flows of a pair that passes no sensor
are those that were drawn for it, however many steps are taken (`unobserved_flows_kept`).
-/

namespace RoadFlow

/-! ## Flows that are cut off -/

section

variable {m : AssignmentMatrix} {t : Target Float32} {c : FitSettings Float32}
  {f fresh : Fit Float32} {told : List (Metrics Float32)}

/-- However a fit began and was driven, it has a flow for each pair and hour, and each is a number
at or above zero. -/
theorem live_flows_nonneg (begun : fresh.Begun m t c) (driven : Driven fresh told f) :
    f.grid.rows = m.width ∧ f.grid.cols = hoursPerDay ∧
      ∀ x ∈ f.grid.entries, x.isNaN = false ∧ 0 ≤ x := by
  have sound := begun.sound.advanceMany told.length
  rw [driven.advanceMany_eq] at sound
  exact ⟨(Array.size_map ..).trans sound.width, rfl,
    fun x mem => Single.nonneg (sound.cut_entry mem)⟩

/-- Flows that are not numbers are no obstacle. -/
theorem live_flows_nonneg_sample :
    ∃ fresh, Fit.resume .sample .sample .standard (.sample (0 / 0) 0) = .ok fresh ∧
      Driven fresh [fresh.advance.metrics] fresh.advance.fit ∧
      ∀ x ∈ fresh.advance.fit.grid.entries, x.isNaN = false ∧ 0 ≤ x := by
  obtain ⟨fresh, resumed⟩ := Fit.resume_sample (0 / 0) 0
  have driven := (Driven.start : Driven fresh [] fresh).step
  obtain ⟨-, -, nonneg⟩ := live_flows_nonneg (.resume _ resumed) driven
  exact ⟨fresh, resumed, driven, nonneg⟩

end

/-! ## Flows without a gradient -/

/-- A number without a mean gradient, which cutting off leaves as it is. -/
structure FittedCell.Rests (x : ℝ) (cell : FittedCell ℝ) : Prop where
  value : cell.value = x
  nonneg : 0 ≤ x
  first : cell.moments.first = 0
  second : cell.moments.second = 0

theorem FittedCell.Rests.step {x : ℝ} {cell : FittedCell ℝ} (rests : cell.Rests x) :
    (cell.move 0).cut.Rests x := by
  obtain ⟨rfl, nonneg, first, second⟩ := rests
  have still : (cell.move 0).moments.first = 0 := by
    simp [move, Moments.absorb, first]
  refine ⟨?_, nonneg, still, ?_⟩
  · -- the update is a quotient of the mean gradient, which stays at zero
    have kept : (cell.move 0).value = cell.value := by
      simp [move, Moments.absorb, Moments.move, first]
    show max (cell.move 0).value 0 = cell.value
    rw [kept, max_eq_left nonneg]
  · simp [cut, move, Moments.absorb, second]

namespace HourFit

variable {f : HourFit ℝ} {column : Nat} {x : ℝ}

/-- A pair that passes no sensor and is at rest. Its updates are counted on. -/
structure Unobserved (column : Nat) (x : ℝ) (f : HourFit ℝ) : Prop where
  passed : f.passed.getD column [] = []
  rests : ∃ cell, f.pairs[column]? = some cell ∧ cell.Rests x

theorem Unobserved.advance (unobserved : f.Unobserved column x) :
    f.advance.Unobserved column x := by
  obtain ⟨passed, cell, found, rests⟩ := unobserved
  refine ⟨passed, _, ?_, rests.step⟩
  have gradient : sumOf f.slopes (f.passed.getD column []) = 0 := by
    rw [passed]
    rfl
  simp only [HourFit.advance, Array.getElem?_mapIdx, found, Option.map_some, gradient]

theorem Unobserved.iterate (unobserved : f.Unobserved column x) (n : Nat) :
    (HourFit.advance^[n] f).Unobserved column x := by
  induction n with
  | zero => exact unobserved
  | succ n ih =>
    rw [Function.iterate_succ_apply']
    exact ih.advance

end HourFit

namespace Fit

variable {m : AssignmentMatrix} {t : Target ℝ} {c : FitSettings ℝ} {f fresh : Fit ℝ}
  {told : List (Metrics ℝ)} {column : Nat} {row : Hourly ℝ} {b : Flows ℝ}

theorem get?_grid {α : Type} [Scalar α] (f : Fit α) (column : Nat) (h : Hour) :
    f.grid.get? column h.index = f.flows[column]?.map h.entry := by
  have rows : f.grid.row[column]? = f.flows[column]? := Vector.getElem?_mk ..
  rw [Grid.get?, rows]
  cases f.flows[column]? with
  | none => rfl
  | some row => exact Vector.getElem?_eq_getElem h.index_lt

/-- A pair that passes no sensor and is at rest in all hours. -/
def Unobserved (column : Nat) (row : Hourly ℝ) (f : Fit ℝ) : Prop :=
  ∀ h : Hour, (f.hour h).Unobserved column (h.entry row)

theorem Unobserved.advanceMany (unobserved : f.Unobserved column row) (n : Nat) :
    (f.advanceMany n).1.Unobserved column row := by
  intro h
  rw [hour_advanceMany]
  exact (unobserved h).iterate n

theorem Unobserved.flows (unobserved : f.Unobserved column row) : f.flows[column]? = some row := by
  have entry (h : Hour) : f.flows[column]?.map h.entry = some (h.entry row) := by
    obtain ⟨-, cell, found, rests⟩ := unobserved h
    rw [← rests.value, ← Option.map_some (f := FittedCell.value), ← found, Fit.flows, hour,
      Array.getElem?_map, Array.getElem?_map, Option.map_map, Option.map_map]
    rfl
  cases found : f.flows[column]? with
  | none =>
    have missing := entry ⟨0, by decide⟩
    rw [found] at missing
    cases missing
  | some values =>
    refine congrArg some (Hour.ext_entry fun h => ?_)
    have same := entry h
    rw [found] at same
    exact Option.some.inj same

/-- At the start every pair is at rest, and those on whose route no sensor is pass none. -/
theorem unobserved_start (started : Fit.start m t c = .ok fresh) (target : t.Valid)
    (inside : column < m.width) (blind : ∀ e ∈ m.column column, e ∉ t.sensors) :
    ∃ row, (firstFlows c.seed m.width)[column]? = some row ∧ fresh.Unobserved column row := by
  have measures := (Begun.start started).measures
  obtain ⟨-, rfl⟩ := start_eq_ok.mp started
  have drawn : column < (firstFlows c.seed m.width : Array (Hourly ℝ)).size := by
    rwa [firstFlows, Array.size_ofFn]
  refine ⟨_, Array.getElem?_eq_getElem drawn, fun h => ⟨?_, ?_⟩⟩
  · refine (measures.passed_eq target inside).trans (List.filter_eq_nil_iff.mpr ?_)
    intro place _ passes
    obtain ⟨e, found, marked⟩ := (Option.any_eq_true ..).mp passes
    exact blind e (List.contains_iff_mem.mp marked) (List.mem_of_getElem? found)
  · have cut := congrArg h.entry (cut_firstFlows (Array.getElem_mem drawn))
    rw [Hour.entry_map] at cut
    refine ⟨(FittedRow.start c (firstFlows c.seed m.width)[column]).hour h, ?_, rfl,
      max_eq_left_iff.mp cut, ?_, ?_⟩
    · simp only [hour, ofParts, Array.getElem?_map, Array.getElem?_eq_getElem drawn]
      rfl
    · exact congrArg Moments.first (h.entry_replicate _)
    · exact congrArg Moments.second (h.entry_replicate _)

/-- Whatever a fresh fit comes to hand out is what one of its steps started from. -/
theorem HandsOut.of_started (handed : f.HandsOut b) (driven : Driven fresh told f)
    (count : fresh.stepsTaken = 0) (empty : fresh.best = none) :
    ∃ i, b = (fresh.advanceMany i).1.current := by
  obtain ⟨n, handed⟩ := handed.exists_step
  have later : (f.advanceMany n).1 = (fresh.advanceMany (told.length + n)).1 := by
    rw [advanceMany_add, driven.advanceMany_eq]
  rw [later] at handed
  rcases handed with now | held
  · exact ⟨_, now⟩
  · have tracks := tracks_advanceMany count empty (told.length + n)
    exact ⟨_, (tracks.leads b held).entered⟩

end Fit

section

variable {m : AssignmentMatrix} {t : Target ℝ} {c : FitSettings ℝ} {f fresh : Fit ℝ}
  {told : List (Metrics ℝ)} {column : Nat}

/-- In exact arithmetic a pair whose route passes no sensor keeps the flows that were drawn for it,
however the fit is driven: in the fit itself and in all flows that it hands out. -/
theorem unobserved_flows_kept (started : Fit.start m t c = .ok fresh)
    (driven : Driven fresh told f) (target : t.Valid) (inside : column < m.width)
    (blind : ∀ e ∈ m.column column, e ∉ t.sensors) :
    ∃ row, (Fit.firstFlows c.seed m.width)[column]? = some row ∧ f.flows[column]? = some row ∧
      ∀ b, f.HandsOut b → ∀ h : Hour, b.pairs.get? column h.index = some (h.entry row) := by
  obtain ⟨row, drawn, unobserved⟩ := Fit.unobserved_start started target inside blind
  obtain ⟨-, -, count, empty⟩ := Fit.start_sound started
  have flows (n : Nat) := (unobserved.advanceMany n).flows
  refine ⟨row, drawn, ?_, fun b handed h => ?_⟩
  · have now := flows told.length
    rwa [driven.advanceMany_eq] at now
  · obtain ⟨i, rfl⟩ := handed.of_started driven count empty
    have shown := (fresh.advanceMany i).1.get?_grid column h
    rw [flows i] at shown
    exact shown

theorem Fit.inputFault?_exact : Fit.inputFault? .sample .exact .exact = none :=
  inputFault?_eq_none.mpr
    ⟨FitSettings.exact_accepted, Array.size_replicate, List.cons_ne_nil _ _⟩

theorem unobserved_flows_kept_sample :
    ∃ fresh row, Fit.start .sample .exact .exact = .ok fresh ∧
      Driven fresh [fresh.advance.metrics] fresh.advance.fit ∧
      AssignmentMatrix.sample.column 2 = [⟨1⟩, ⟨2⟩] ∧ Target.exact.sensors = [⟨0⟩] ∧
      (Fit.firstFlows FitSettings.exact.seed 4)[2]? = some row ∧
      fresh.advance.fit.flows[2]? = some row := by
  obtain ⟨fresh, started⟩ : ∃ fresh, Fit.start .sample .exact .exact = .ok fresh :=
    ⟨_, by rw [Fit.start, Fit.inputFault?_exact]⟩
  have driven := (Driven.start : Driven fresh [] fresh).step
  have blind : ∀ e ∈ AssignmentMatrix.sample.column 2, e ∉ Target.exact.sensors := by
    have apart : ∀ e ∈ AssignmentMatrix.sample.column 2, e ∉ [(⟨0⟩ : EdgeId)] := by decide
    exact apart
  obtain ⟨row, drawn, kept, -⟩ :=
    unobserved_flows_kept started driven Target.exact_valid (by decide) blind
  exact ⟨fresh, row, started, driven, rfl, rfl, drawn, kept⟩

end

end RoadFlow
