import RoadFlow.Fit.State
import RoadFlow.Proofs.Except

/-!
# How fits begin

A fit begins from random flows or from a checkpoint. Either way it is put together from its inputs
and the parameters it begins with (`Begun.eq_ofParts`). Whether it may begin is a matter of the
settings, the number of edges and the sensors (`inputFault?_congr`).
-/

namespace RoadFlow

variable {α : Type} [Scalar α] {m m' : AssignmentMatrix} {t t' : Target α} {c : FitSettings α}
  {checkpoint : Flows α} {f : Fit α}

theorem FitSettings.fault?_eq_none : c.fault? = none ↔
    isPositive c.learningRate = true ∧ isDecay c.beta1 = true ∧ isDecay c.beta2 = true ∧
      isPositive c.epsilon = true ∧ 0 < c.logInterval := by
  have positive : 0 < c.logInterval ↔ ¬ c.logInterval = 0 := Nat.pos_iff_ne_zero
  rw [fault?, positive]
  cases isPositive c.learningRate <;> cases isDecay c.beta1 <;> cases isDecay c.beta2 <;>
    cases isPositive c.epsilon <;> simp

namespace Fit

/-- A fit that was begun for some inputs, from random flows or from a checkpoint. -/
inductive Begun (m : AssignmentMatrix) (t : Target α) (c : FitSettings α) (f : Fit α) : Prop
  | start (begun : Fit.start m t c = .ok f)
  | resume (checkpoint : Flows α) (begun : Fit.resume m t c checkpoint = .ok f)

theorem start_eq_ok : Fit.start m t c = .ok f ↔ inputFault? m t c = none ∧
    f = ofParts m t c (firstFlows c.seed m.width)
      (if c.useBias then some (Grid.zeros hoursPerDay) else none) 0 none := by
  rw [Fit.start]
  cases inputFault? m t c with
  | some fault => simp
  | none =>
    simp only [true_and]
    exact ⟨fun begun => (Except.ok.inj begun).symm, fun same => congrArg Except.ok same.symm⟩

theorem resume_eq_ok : Fit.resume m t c checkpoint = .ok f ↔
    inputFault? m t c = none ∧ checkpoint.clusterCount = m.clusterCount ∧
      ∃ pairs, resumedFlows m checkpoint = .ok pairs ∧
        ∃ bias, resumedBias c checkpoint.bias = .ok bias ∧
          f = ofParts m t c pairs bias checkpoint.step (some checkpoint) := by
  rw [Fit.resume]
  cases inputFault? m t c with
  | some fault => simp
  | none =>
    by_cases clusters : checkpoint.clusterCount = m.clusterCount
    · simp only [clusters, ne_eq, not_true_eq_false, if_false, true_and, bind_eq_ok, pure,
        Except.pure, Except.ok.injEq, eq_comm (b := f)]
    · simp [clusters]

theorem inputFault?_congr (edges : m'.edgeCount = m.edgeCount) (rows : t'.edgeCount = t.edgeCount)
    (sensors : t'.sensors = t.sensors) : inputFault? m' t' c = inputFault? m t c := by
  simp only [inputFault?, edges, rows, sensors]

theorem inputFault?_eq_none : inputFault? m t c = none ↔
    c.fault? = none ∧ t.edgeCount = m.edgeCount ∧ t.sensors ≠ [] := by
  rw [inputFault?]
  cases c.fault? with
  | some fault => simp
  | none =>
    by_cases edges : t.edgeCount = m.edgeCount
    · cases t.sensors <;> simp [edges]
    · simp [edges]

theorem edgeCount_eq (fine : inputFault? m t c = none) : t.edgeCount = m.edgeCount :=
  (inputFault?_eq_none.mp fine).2.1

theorem Begun.fine (begun : Begun m t c f) : inputFault? m t c = none := by
  cases begun with
  | start begun => exact (start_eq_ok.mp begun).1
  | resume checkpoint begun => exact (resume_eq_ok.mp begun).1

section

variable {pairs : Array (Hourly α)} {bias : Option (Hourly α)} {stepsTaken : Nat}
  {best : Option (Flows α)}

theorem flows_ofParts : (ofParts m t c pairs bias stepsTaken best).flows = pairs := by
  rw [flows, ofParts, Array.map_map]
  exact Array.map_id pairs

theorem addend_ofParts : (ofParts m t c pairs bias stepsTaken best).addend = bias := by
  rw [addend, ofParts, Option.map_map]
  exact Option.map_id'

end

/-- A fit that has just begun is made of its inputs and what it shows. -/
theorem Begun.eq_ofParts (begun : Begun m t c f) :
    f = ofParts m t c f.flows f.addend f.stepsTaken f.best := by
  suffices made : ∃ pairs bias stepsTaken best, f = ofParts m t c pairs bias stepsTaken best by
    obtain ⟨pairs, bias, stepsTaken, best, rfl⟩ := made
    rw [flows_ofParts, addend_ofParts]
    rfl
  cases begun with
  | start begun => exact ⟨_, _, _, _, (start_eq_ok.mp begun).2⟩
  | resume checkpoint begun =>
    obtain ⟨-, -, pairs, -, bias, -, same⟩ := resume_eq_ok.mp begun
    exact ⟨_, _, _, _, same⟩

end Fit

end RoadFlow
