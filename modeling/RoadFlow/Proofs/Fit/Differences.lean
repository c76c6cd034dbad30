import Mathlib.Analysis.Real.Sqrt
import RoadFlow.Proofs.Fit.Evaluation

/-!
# Gradients are those of the loss

In exact arithmetic the loss is a quadratic polynomial in each flow and each hour of the addend. The
gradients that a step moves its parameters by are the linear coefficients of these polynomials
(`loss_differences`).
-/

namespace RoadFlow

variable {h k : Hour} {d : ℝ}

/-! ## Rows raised in one hour -/

/-- A row with so much more in one hour. -/
noncomputable def Hour.raise (h : Hour) (d : ℝ) (row : Hourly ℝ) : Hourly ℝ :=
  row.set h.index (h.entry row + d) h.index_lt

noncomputable def sumSquares (row : Hourly ℝ) : ℝ := (row.toList.map fun x => x * x).sum

theorem Hour.entry_raise (row : Hourly ℝ) :
    k.entry (h.raise d row) = k.entry row + if k = h then d else 0 := by
  by_cases same : k = h
  · subst same
    simp [raise, entry, Vector.get_eq_getElem]
  · have apart : h.index ≠ k.index := by
      intro equal
      exact same (by cases h; cases k; cases equal; rfl)
    simp [raise, entry, Vector.get_eq_getElem, same, apart]

theorem sumSquares_raise (row : Hourly ℝ) :
    sumSquares (h.raise d row) = sumSquares row + (2 * d * h.entry row + d ^ 2) := by
  have inside : h.index < (row.toList.map fun x => x * x).length := by
    simpa using h.index_lt
  rw [sumSquares, Hour.raise, Vector.toList_set, List.map_set, List.sum_set', dif_pos inside]
  simp only [List.getElem_map, Vector.getElem_toList, sumSquares, Hour.entry,
    Vector.get_eq_getElem]
  ring

/-- What is raised before other rows are added or subtracted may be raised afterwards. -/
theorem zipWith_raise {f : ℝ → ℝ → ℝ} (shift : ∀ x y e, f (x + e) y = f x y + e)
    (row other : Hourly ℝ) :
    (h.raise d row).zipWith f other = h.raise d (row.zipWith f other) := by
  refine Hour.ext_entry fun k => ?_
  rw [Hour.entry_zipWith, Hour.entry_raise, Hour.entry_raise, Hour.entry_zipWith, shift]

theorem addRows_comm (row other : Hourly ℝ) : Grid.addRows row other = Grid.addRows other row := by
  refine Hour.ext_entry fun k => ?_
  rw [Grid.addRows, Grid.addRows, Hour.entry_zipWith, Hour.entry_zipWith]
  exact add_comm _ _

theorem addRows_raise (row other : Hourly ℝ) :
    Grid.addRows (h.raise d row) other = h.raise d (Grid.addRows row other) :=
  zipWith_raise (fun x y e => add_right_comm x e y) row other

theorem sumOf_exact (values : Array ℝ) (chosen : List Nat) :
    sumOf values chosen = (chosen.map fun r => values.getD r 0).sum := by
  rw [sumOf, foldl_add_eq, zero_add]

/-- A sum of rows rises with one that is among them. -/
theorem sumChosen_raise {rows : Array (Hourly ℝ)} {chosen : List Nat} {column : Nat}
    (inside : column < rows.size) (nodup : chosen.Nodup) :
    Grid.sumChosen (rows.modify column (h.raise d)) chosen =
      if column ∈ chosen then h.raise d (Grid.sumChosen rows chosen)
      else Grid.sumChosen rows chosen := by
  refine Hour.ext_entry fun k => ?_
  let old (r : Nat) : ℝ := (rows.map k.entry).getD r 0
  have raised (r : Nat) : ((rows.modify column (h.raise d)).map k.entry).getD r 0 =
      if r = column then old r + (if k = h then d else 0) else old r := by
    simp only [old, Array.getD_eq_getD_getElem?, Array.getElem?_map, Array.getElem?_modify]
    by_cases same : r = column
    · subst same
      simp [inside, Hour.entry_raise]
    · simp [same, Ne.symm same]
  have sum : k.entry (Grid.sumChosen (rows.modify column (h.raise d)) chosen) =
      k.entry (Grid.sumChosen rows chosen) +
        chosen.count column • (if k = h then d else 0 : ℝ) := by
    rw [Grid.entry_sumChosen, Grid.entry_sumChosen, sumOf_exact, sumOf_exact]
    simp only [raised]
    rw [List.sum_map_ite_eq, add_sub_cancel_left, add_comm]
  rw [sum]
  by_cases mem : column ∈ chosen
  · rw [List.count_eq_one_of_mem nodup mem, one_smul, if_pos mem, Hour.entry_raise]
  · rw [List.count_eq_zero.mpr mem, zero_smul, add_zero, if_neg mem]

/-! ## Fits with one parameter raised -/

namespace Fit

variable {m : AssignmentMatrix} {t : Target ℝ} {c : FitSettings ℝ} {f g : Fit ℝ} {column : Nat}

/-- The fit with the flow of a pair in an hour raised by so much. -/
noncomputable def raiseFlow (f : Fit ℝ) (column : Nat) (h : Hour) (d : ℝ) : Fit ℝ :=
  { f with pairs := f.pairs.modify column fun row => { row with values := h.raise d row.values } }

/-- The fit with the addend of an hour raised by so much. -/
noncomputable def raiseAddend (f : Fit ℝ) (h : Hour) (d : ℝ) : Fit ℝ :=
  { f with bias := f.bias.map fun row => { row with values := h.raise d row.values } }

theorem flows_raiseFlow : (f.raiseFlow column h d).flows = f.flows.modify column (h.raise d) := by
  refine Array.ext_getElem? fun i => ?_
  simp only [flows, raiseFlow, Array.getElem?_map, Array.getElem?_modify]
  split <;> simp [Option.map_map, Function.comp_def]

theorem addend_raiseAddend : (f.raiseAddend h d).addend = f.addend.map (h.raise d) := by
  simp only [addend, raiseAddend, Option.map_map, Function.comp_def]

theorem onEdge_raiseFlow (inside : column < f.flows.size) (e : EdgeId) :
    (f.raiseFlow column h d).onEdge e =
      if column ∈ f.matrix.columnsOf e then h.raise d (f.onEdge e) else f.onEdge e := by
  have matrix : (f.raiseFlow column h d).matrix = f.matrix := rfl
  have addend : (f.raiseFlow column h d).addend = f.addend := rfl
  have sum := sumChosen_raise (h := h) (d := d) inside (f.matrix.nodup_columnsOf e)
  rw [onEdge, onEdge, matrix, addend, flows_raiseFlow, sum]
  cases f.addend with
  | none => rfl
  | some addend =>
    split
    · exact addRows_raise _ addend
    · rfl

theorem onEdge_raiseAddend (held : f.addend.isSome = true) (e : EdgeId) :
    (f.raiseAddend h d).onEdge e = h.raise d (f.onEdge e) := by
  have matrix : (f.raiseAddend h d).matrix = f.matrix := rfl
  have flows : (f.raiseAddend h d).flows = f.flows := rfl
  obtain ⟨addend, held⟩ := Option.isSome_iff_exists.mp held
  rw [onEdge, onEdge, matrix, flows, addend_raiseAddend, held]
  show Grid.addRows _ (h.raise d addend) = h.raise d (Grid.addRows _ addend)
  rw [addRows_comm, addRows_raise, addRows_comm]

/-! ## The loss of a raised fit -/

/-- The loss as the sum of the squares of all differences. -/
theorem Measures.loss_eq (measures : f.Measures m t) (target : t.Valid) :
    f.current.loss = (t.sensors.map fun e => sumSquares (t.excess f.onEdge e)).sum /
      (t.sensors.length * hoursPerDay : Nat) := by
  rw [measures.current_loss target, Deviation.mean, t.length_differences, foldl_add_eq, zero_add,
    Target.differences, List.map_flatMap, List.flatMap_def, List.sum_flatten, List.map_map]
  rfl

/-- What raising the flow on some sensors by so much adds to the loss. -/
theorem Measures.loss_raised (measures : f.Measures m t) (raised : g.Measures m t)
    (target : t.Valid) (p : EdgeId → Bool)
    (onEdge : ∀ e ∈ t.sensors, g.onEdge e = if p e then h.raise d (f.onEdge e) else f.onEdge e) :
    g.current.loss - f.current.loss =
      d * (t.sensors.filter p).foldl (fun sum e => sum + h.entry (t.slope f.onEdge e)) 0 +
        d ^ 2 * t.sensors.countP p / (t.sensors.length * hoursPerDay : Nat) := by
  -- a sensor that is raised adds `2 * d * x + d ^ 2` to the sum, where `x` is its difference
  let n : ℝ := (t.sensors.length * hoursPerDay : Nat)
  let x (e : EdgeId) : ℝ := h.entry (t.excess f.onEdge e)
  have slope (e : EdgeId) : h.entry (t.slope f.onEdge e) = 2 / n * x e := by
    rw [Target.slope, Hour.entry_map]
    exact mul_comm _ _
  have squares (e : EdgeId) (mem : e ∈ t.sensors) : sumSquares (t.excess g.onEdge e) =
      sumSquares (t.excess f.onEdge e) + if p e then 2 * d * x e + d ^ 2 else 0 := by
    rw [Target.excess, Target.excess, onEdge e mem]
    split
    · rw [zipWith_raise fun x y e => add_sub_right_comm x e y, sumSquares_raise]
      rfl
    · rw [add_zero]
  have ones : ((t.sensors.filter p).map fun _ => d ^ 2).sum = d ^ 2 * t.sensors.countP p := by
    rw [List.map_const', List.sum_replicate, ← List.countP_eq_length_filter, nsmul_eq_mul, mul_comm]
  rw [measures.loss_eq target, raised.loss_eq target, List.map_congr_left squares,
    List.sum_map_add, ← sum_map_filter, List.sum_map_add, ones, List.sum_map_mul_left,
    foldl_add_eq]
  simp only [slope, List.sum_map_mul_left]
  ring

end Fit

/-! ## Differences of the loss -/

section

variable {m : AssignmentMatrix} {t : Target ℝ} {f : Fit ℝ}

/-- In exact arithmetic, raising a flow or an hour of the addend by `d` adds to the loss `d` times
its gradient and `d ^ 2` times the number of sensors that see it, over the number of hours of all
sensors. -/
theorem loss_differences (measures : f.Measures m t) (target : t.Valid) :
    (∀ column < m.width, ∀ (h : Hour) (d : ℝ),
      (f.raiseFlow column h d).current.loss - f.current.loss =
        d * h.entry (f.pairGradient column) +
          d ^ 2 * t.sensors.countP (m.marks · column) / (t.sensors.length * hoursPerDay : Nat)) ∧
    (f.addend.isSome = true → ∀ (h : Hour) (d : ℝ),
      (f.raiseAddend h d).current.loss - f.current.loss =
        d * h.entry f.biasGradient +
          d ^ 2 * t.sensors.length / (t.sensors.length * hoursPerDay : Nat)) := by
  constructor
  · intro column inside h d
    have width : column < f.flows.size := by
      rw [Fit.flows, Array.size_map, measures.width]
      exact inside
    have raised : (f.raiseFlow column h d).Measures m t :=
      ⟨measures.edgeCount, measures.matrix, measures.sensors, measures.passed,
        (Array.size_modify ..).trans measures.width⟩
    rw [measures.entry_pairGradient target inside]
    refine measures.loss_raised raised target _ fun e _ => ?_
    rw [Fit.onEdge_raiseFlow width, measures.matrix]
    simp [AssignmentMatrix.columnsOf, inside]
  · intro held h d
    have raised : (f.raiseAddend h d).Measures m t :=
      ⟨measures.edgeCount, measures.matrix, measures.sensors, measures.passed, measures.width⟩
    have all := measures.loss_raised raised target (h := h) (d := d) (fun _ => true)
      fun e _ => Fit.onEdge_raiseAddend held e
    rw [List.filter_true, List.countP_true] at all
    rw [all, measures.entry_biasGradient target]

end

/-- Three edges, the first of them with counts. -/
noncomputable def Target.exact : Target ℝ :=
  ⟨Array.replicate 3 (Grid.zeros hoursPerDay), [⟨0⟩]⟩

theorem Target.exact_valid : Target.exact.Valid where
  ascending := List.pairwise_singleton _ _
  inside := by
    intro e mem
    obtain rfl := List.mem_singleton.mp mem
    exact Nat.lt_of_lt_of_eq (by decide) Array.size_replicate.symm
  finite := by
    intro e _
    exact List.findIdx?_eq_none_iff.mpr fun x _ => rfl

noncomputable def FitSettings.exact : FitSettings ℝ where
  steps := 1000
  learningRate := 1 / 1000
  beta1 := 9 / 10
  beta2 := 999 / 1000
  epsilon := 1 / 100000000
  logInterval := 100
  saveInterval := 0
  useBias := true
  seed := 42

theorem FitSettings.exact_accepted : FitSettings.exact.fault? = none := by
  norm_num [fault?, isPositive, isDecay, exact, Scalar.isFinite, Scalar.lt]

/-- No flows at all, and an addend. -/
noncomputable def Fit.exact : Fit ℝ :=
  .ofParts .sample .exact .exact (Array.replicate 4 (Grid.zeros hoursPerDay))
    (some (Grid.zeros hoursPerDay)) 0 none

theorem loss_differences_sample :
    Fit.exact.Measures .sample .exact ∧ 1 < AssignmentMatrix.sample.width ∧
      Fit.exact.addend.isSome = true ∧
      ∀ (h : Hour) (d : ℝ),
        ((Fit.exact.raiseFlow 1 h d).current.loss - Fit.exact.current.loss =
          d * h.entry (Fit.exact.pairGradient 1) + d ^ 2 * (1 : Nat) / (1 * hoursPerDay : Nat)) ∧
        (Fit.exact.raiseAddend h d).current.loss - Fit.exact.current.loss =
          d * h.entry Fit.exact.biasGradient + d ^ 2 * (1 : Nat) / (1 * hoursPerDay : Nat) := by
  have edgeCount : Target.exact.edgeCount = AssignmentMatrix.sample.edgeCount :=
    Array.size_replicate
  have measures : Fit.exact.Measures .sample .exact :=
    Fit.measures_ofParts edgeCount Array.size_replicate ..
  obtain ⟨flow, addend⟩ := loss_differences measures Target.exact_valid
  exact ⟨measures, by decide, rfl, fun h d => ⟨flow 1 (by decide) h d, addend rfl h d⟩⟩

end RoadFlow
