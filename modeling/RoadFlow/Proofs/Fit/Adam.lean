import RoadFlow.Proofs.Fit.Differences

/-!
# The optimiser

An update moves each parameter by itself, along its own gradients (`Adam.cell_after`). In exact
arithmetic the moments are means of these gradients and of their squares, in which each weighs less
than the next by one factor, nothing is ever divided by zero, and a parameter moves as it does when
both moments are first corrected for having started at zero (`adam_textbook`).

Since each parameter goes its own way, it does not matter that every pair of a fit has an optimiser
of its own: one optimiser of all flows, written row behind row, would move them alike
(`Fit.Begun.inOne_advanceMany`).
-/

namespace RoadFlow

variable {α : Type} [Scalar α] {size : Nat}

/-! ## One parameter -/

/-- A number under fit after so many updates, each by the next gradient. -/
def FittedCell.after (c : FitSettings α) (start : α) (gradients : Nat → α) : Nat → FittedCell α
  | 0 => ⟨start, ⟨0, 0⟩, c, 0⟩
  | t + 1 => (after c start gradients t).move (gradients t)

namespace Adam

/-- Parameters and their optimiser after so many updates, each by the next gradients. -/
def after (c : FitSettings α) (start : Vector α size) (gradients : Nat → Vector α size) :
    Nat → Vector α size × Adam α size
  | 0 => (start, .start size c)
  | t + 1 =>
    let (parameters, a) := after c start gradients t
    a.step parameters (gradients t)

variable {c : FitSettings α} {start : Vector α size} {gradients : Nat → Vector α size}

/-- A parameter among others goes the way that it goes alone. -/
theorem cell_after (i : Fin size) (t : Nat) :
    (after c start gradients t).2.cell (after c start gradients t).1 i =
      FittedCell.after c start[i] (fun k => (gradients k)[i]) t := by
  induction t with
  | zero => simp [after, FittedCell.after, cell, Adam.start, Vector.get_eq_getElem]
  | succ t ih =>
    rw [FittedCell.after, ← ih]
    exact cell_step ..

end Adam

namespace FittedCell

variable {c : FitSettings α} {start : α} {gradients : Nat → α}

@[simp] theorem settings_after (t : Nat) : (after c start gradients t).settings = c := by
  induction t with
  | zero => rfl
  | succ t ih => exact ih

@[simp] theorem updates_after (t : Nat) : (after c start gradients t).updates = t := by
  induction t with
  | zero => rfl
  | succ t ih => exact congrArg (· + 1) ih

end FittedCell

/-! ## Exact arithmetic -/

theorem times_lastDigit (r a : ℝ) (n : Nat) :
    (if n % 2 = 1 then r * a else r) = r * a ^ (n % 2) := by
  rcases Nat.mod_two_eq_zero_or_one n with even | odd
  · simp [even]
  · simp [odd]

theorem timesPower_exact (r a : ℝ) (n : Nat) : timesPower r a n = r * a ^ n := by
  fun_induction timesPower r a n with
  | case1 r a n r' last =>
    have digit : r' = r * a ^ (n % 2) := times_lastDigit r a n
    have whole : n % 2 = n := by omega
    rw [digit, whole]
  | case2 r a n r' more ih =>
    have digit : r' = r * a ^ (n % 2) := times_lastDigit r a n
    rw [ih, digit, ← pow_two, ← pow_mul, mul_assoc, ← pow_add, Nat.mod_add_div]

theorem power_exact (a : ℝ) (n : Nat) : power a n = a ^ n := by
  rw [power, timesPower_exact, one_mul]

namespace FitSettings

theorem isPositive_exact {x : ℝ} : isPositive x = true ↔ 0 < x := by
  simp [isPositive, Scalar.isFinite, Scalar.lt]

theorem isDecay_exact {x : ℝ} : isDecay x = true ↔ 0 ≤ x ∧ x < 1 := by
  simp [isDecay, Scalar.lt]

end FitSettings

namespace Adam

/-- The mean of the first `t` of some numbers, in which each weighs `beta` times as much as the
next. -/
noncomputable def fadingMean (beta : ℝ) (x : Nat → ℝ) (t : Nat) : ℝ :=
  (1 - beta) * ∑ k ∈ Finset.range t, beta ^ (t - (k + 1)) * x k

variable {beta : ℝ} {x : Nat → ℝ}

theorem fadingMean_succ (t : Nat) :
    fadingMean beta x (t + 1) = beta * fadingMean beta x t + (1 - beta) * x t := by
  have earlier : ∑ k ∈ Finset.range t, beta ^ (t + 1 - (k + 1)) * x k =
      beta * ∑ k ∈ Finset.range t, beta ^ (t - (k + 1)) * x k := by
    rw [Finset.mul_sum]
    refine Finset.sum_congr rfl fun k mem => ?_
    have early := Finset.mem_range.mp mem
    have exponent : t + 1 - (k + 1) = t - (k + 1) + 1 := by omega
    rw [exponent, pow_succ]
    ring
  rw [fadingMean, fadingMean, Finset.sum_range_succ, earlier, Nat.sub_self]
  ring

theorem fadingMean_nonneg (decay : 0 ≤ beta ∧ beta < 1) (nonneg : ∀ k, 0 ≤ x k) (t : Nat) :
    0 ≤ fadingMean beta x t := by
  have terms : 0 ≤ ∑ k ∈ Finset.range t, beta ^ (t - (k + 1)) * x k :=
    Finset.sum_nonneg fun k _ => mul_nonneg (pow_nonneg decay.1 _) (nonneg k)
  exact mul_nonneg (sub_nonneg.mpr decay.2.le) terms

end Adam

namespace FittedCell

variable {c : FitSettings ℝ} {start : ℝ} {gradients : Nat → ℝ}

theorem first_after (t : Nat) :
    (after c start gradients t).moments.first = Adam.fadingMean c.beta1 gradients t := by
  induction t with
  | zero => simp [after, Adam.fadingMean]
  | succ t ih =>
    rw [Adam.fadingMean_succ, ← ih]
    simp [after, move, Moments.absorb]

theorem second_after (t : Nat) :
    (after c start gradients t).moments.second =
      Adam.fadingMean c.beta2 (fun k => gradients k ^ 2) t := by
  induction t with
  | zero => simp [after, Adam.fadingMean]
  | succ t ih =>
    rw [Adam.fadingMean_succ, ← ih, pow_two, ← mul_assoc]
    simp [after, move, Moments.absorb]

/-- An update of a number, the one after `t` others, as it is written with corrected moments. -/
structure Textbook (c : FitSettings ℝ) (gradients : Nat → ℝ) (t : Nat) (old new : FittedCell ℝ) :
    Prop where
  first : new.moments.first = Adam.fadingMean c.beta1 gradients (t + 1)
  second : new.moments.second = Adam.fadingMean c.beta2 (fun k => gradients k ^ 2) (t + 1)
  second_nonneg : 0 ≤ new.moments.second
  /-- The corrections are computed from these, and the step is divided by the first of them. -/
  correction : Adam.correction c (t + 1) =
    ⟨c.learningRate / (1 - c.beta1 ^ (t + 1)), √(1 - c.beta2 ^ (t + 1))⟩
  first_correction : 0 < 1 - c.beta1 ^ (t + 1)
  second_correction : 0 < 1 - c.beta2 ^ (t + 1)
  /-- The other two numbers that are divided by. -/
  root : 0 < (Adam.correction c (t + 1)).divisor
  denominator : 0 < √new.moments.second / (Adam.correction c (t + 1)).divisor + c.epsilon
  value : new.value = old.value -
    c.learningRate * (new.moments.first / (1 - c.beta1 ^ (t + 1))) /
      (√(new.moments.second / (1 - c.beta2 ^ (t + 1))) + c.epsilon)

/-- The update that the optimiser makes is the one that is written. -/
theorem textbook_after (accepted : c.fault? = none) {t : Nat} (few : t < Adam.correctedUpdates) :
    Textbook c gradients t (after c start gradients t) (after c start gradients (t + 1)) := by
  obtain ⟨-, decay1, decay2, epsilon, -⟩ := FitSettings.fault?_eq_none.mp accepted
  rw [FitSettings.isDecay_exact] at decay1 decay2
  rw [FitSettings.isPositive_exact] at epsilon
  have first1 : 0 < 1 - c.beta1 ^ (t + 1) :=
    sub_pos.mpr (pow_lt_one₀ decay1.1 decay1.2 (Nat.succ_ne_zero t))
  have second1 : 0 < 1 - c.beta2 ^ (t + 1) :=
    sub_pos.mpr (pow_lt_one₀ decay2.1 decay2.2 (Nat.succ_ne_zero t))
  have correction : Adam.correction c (t + 1) =
      ⟨c.learningRate / (1 - c.beta1 ^ (t + 1)), √(1 - c.beta2 ^ (t + 1))⟩ := by
    rw [Adam.correction, min_eq_left few, power_exact, power_exact]
    rfl
  have root : 0 < √(1 - c.beta2 ^ (t + 1)) := Real.sqrt_pos.mpr second1
  have nonneg : 0 ≤ (after c start gradients (t + 1)).moments.second := by
    rw [second_after]
    exact Adam.fadingMean_nonneg decay2 (fun k => sq_nonneg _) (t + 1)
  refine ⟨first_after _, second_after _, nonneg, correction, first1, second1, ?_, ?_, ?_⟩
  · rw [correction]
    exact root
  · rw [correction]
    exact add_pos_of_nonneg_of_pos (div_nonneg (Real.sqrt_nonneg _) root.le) epsilon
  · have moved : (after c start gradients (t + 1)).value = (after c start gradients t).value -
        c.learningRate / (1 - c.beta1 ^ (t + 1)) *
          (after c start gradients (t + 1)).moments.first /
            (√(after c start gradients (t + 1)).moments.second / √(1 - c.beta2 ^ (t + 1)) +
              c.epsilon) := by
      rw [after, move, settings_after, updates_after, correction]
      rfl
    rw [moved, Real.sqrt_div nonneg, div_mul_eq_mul_div, mul_div_assoc c.learningRate]

end FittedCell

/-- In exact arithmetic each parameter goes its own way, by its own gradients, and every update of
it is the one that is written with corrected moments, without a division by zero. -/
theorem adam_textbook {c : FitSettings ℝ} (accepted : c.fault? = none) (start : Vector ℝ size)
    (gradients : Nat → Vector ℝ size) (i : Fin size) :
    (∀ t, (Adam.after c start gradients t).2.cell (Adam.after c start gradients t).1 i =
      FittedCell.after c start[i] (fun k => (gradients k)[i]) t) ∧
    ∀ t < Adam.correctedUpdates, FittedCell.Textbook c (fun k => (gradients k)[i]) t
      ((Adam.after c start gradients t).2.cell (Adam.after c start gradients t).1 i)
      ((Adam.after c start gradients (t + 1)).2.cell
        (Adam.after c start gradients (t + 1)).1 i) := by
  refine ⟨Adam.cell_after i, fun t few => ?_⟩
  rw [Adam.cell_after, Adam.cell_after]
  exact FittedCell.textbook_after accepted few

theorem adam_textbook_sample :
    FitSettings.exact.fault? = none ∧ 0 < Adam.correctedUpdates ∧
      (Adam.after .exact #v[5, 5] (fun _ => #v[1, -2]) 1).1[1] =
        (5 + 1 / 1000 * 2 / (2 + 1 / 100000000) : ℝ) := by
  have few : 0 < Adam.correctedUpdates := by decide
  have moves := (adam_textbook FitSettings.exact_accepted #v[5, 5] (fun _ => #v[1, -2]) 1).2 0 few
  have four : √(4 : ℝ) = 2 := by
    rw [Real.sqrt_eq_iff_mul_self_eq] <;> norm_num
  have value := moves.value
  rw [moves.first, moves.second] at value
  refine ⟨FitSettings.exact_accepted, few, value.trans ?_⟩
  norm_num [Adam.after, Adam.cell, Adam.fadingMean, FitSettings.exact, four]

/-! ## One optimiser of all flows -/

section

variable {β : Type} [Scalar β] [Widens α β] {n : Nat}

/-- The place of a row's hour when rows are written one behind the other. -/
def flatIndex (row : Fin n) (h : Hour) : Fin (n * hoursPerDay) :=
  finProdFinEquiv (row, ⟨h.index, h.index_lt⟩)

def flatten (rows : Fin n → Hourly α) : Vector α (n * hoursPerDay) :=
  .ofFn fun i => (rows (finProdFinEquiv.symm i).1).get (finProdFinEquiv.symm i).2

omit [Scalar α] in
theorem get_flatten (rows : Fin n → Hourly α) (row : Fin n) (h : Hour) :
    (flatten rows).get (flatIndex row h) = h.entry (rows row) := by
  have back : finProdFinEquiv.symm (flatIndex row h) = (row, ⟨h.index, h.index_lt⟩) :=
    Equiv.symm_apply_apply ..
  rw [flatten, Vector.get_eq_getElem, Vector.getElem_ofFn]
  show (rows (finProdFinEquiv.symm (flatIndex row h)).1).get _ = _
  rw [back]
  rfl

/-- The flows of some pairs with one optimiser of them all. -/
structure FlatFlows (α : Type) (n : Nat) where
  values : Vector α (n * hoursPerDay)
  adam : Adam α (n * hoursPerDay)

/-- An update of all flows, which are cut off at zero then. -/
def FlatFlows.advance (flat : FlatFlows α n) (gradients : Vector α (n * hoursPerDay)) :
    FlatFlows α n :=
  let (values, adam) := flat.adam.step flat.values gradients
  ⟨values.map Scalar.atLeastZero, adam⟩

namespace Fit

/-- The gradients of all flows. -/
def gradients (f : Fit α) : Vector α (n * hoursPerDay) :=
  flatten fun row =>
    Deviation.pairGradient (Deviation.slopes f.residuals) (f.passed.getD row.val [])

/-- One optimiser holds what the optimisers of the pairs do. -/
def InOne (f : Fit α) (flat : FlatFlows α n) : Prop :=
  ∀ (row : Fin n) (h : Hour),
    f.pairs[row.val]?.map (·.hour h) = some (flat.adam.cell flat.values (flatIndex row h))

/-- One optimiser over so many steps of a fit. -/
def flatMany : Nat → Fit α → FlatFlows α n → FlatFlows α n
  | 0, _, flat => flat
  | k + 1, f, flat => flatMany k f.advance.fit (flat.advance f.gradients)

theorem InOne.advance {f : Fit α} {flat : FlatFlows α n} (same : f.InOne flat) :
    f.advance.fit.InOne (flat.advance f.gradients) := by
  intro row h
  obtain ⟨own, held, cell⟩ := Option.map_eq_some_iff.mp (same row h)
  have moved : f.advance.fit.pairs[row.val]? = some (own.move (Deviation.pairGradient
      (Deviation.slopes f.residuals) (f.passed.getD row.val []))).cut := by
    rw [Fit.advance, Array.getElem?_mapIdx, held, Option.map_some]
  have cut : (flat.advance f.gradients).adam.cell (flat.advance f.gradients).values
      (flatIndex row h) = ((flat.adam.cell flat.values (flatIndex row h)).move
        (f.gradients.get (flatIndex row h))).cut := by
    rw [← Adam.cell_step]
    simp [FlatFlows.advance, Adam.cell, FittedCell.cut, Vector.get_eq_getElem]
  rw [moved, Option.map_some, FittedRow.hour_cut, FittedRow.hour_move, cell, cut, gradients,
    get_flatten]

theorem InOne.advanceMany {f : Fit α} {flat : FlatFlows α n} (same : f.InOne flat) (k : Nat) :
    (f.advanceMany k).1.InOne (f.flatMany k flat) := by
  induction k generalizing f flat with
  | zero => exact same
  | succ k ih => exact ih same.advance

/-- A fit that begins moves its flows like one optimiser of them all, at rest at the start. -/
theorem Begun.inOne_advanceMany {m : AssignmentMatrix} {t : Target α} {c : FitSettings α}
    {f : Fit α} (begun : f.Begun m t c) (k : Nat) :
    (f.advanceMany k).1.InOne
      (f.flatMany k ⟨flatten fun row : Fin f.flows.size => f.flows[row], .start _ c⟩) := by
  apply InOne.advanceMany
  intro row h
  have started : f.pairs = f.flows.map (.start c) := congrArg Fit.pairs begun.eq_ofParts
  rw [started, Array.getElem?_map, Array.getElem?_eq_getElem row.isLt]
  simp only [Adam.cell, get_flatten]
  simp [FittedRow.hour, FittedRow.start, Adam.start, Hour.entry, Vector.get_eq_getElem]

end Fit

end

end RoadFlow
