import RoadFlow.Proofs.Fit.Resumption
import RoadFlow.Proofs.Matrix.Grid
import RoadFlow.Proofs.Matrix.Product
import RoadFlow.Proofs.Sensor.Slots

/-!
# Sensors that no flows can move

In exact arithmetic a prediction is the sum of the flows that pass an edge and the addend
(`Flows.predicted?_eq`). At a sensor that no pair passes it is the addend, whatever the flows; at
any other it takes each value from the addend up, since a single flow can make up the difference
(`Flows.exists_predicted`). So the sensors reported as uncovered are those whose predictions do not
depend on the flows (`uncovered_sensors`).
-/

namespace RoadFlow

variable {m : AssignmentMatrix} {f : Flows ℝ} {bias : Option (Array ℝ)} {e : EdgeId} {h : Hour}

theorem Grid.exists_of_mem_ofFn {γ : Type} {rows cols : Nat} {f : Nat → Nat → γ} {x : γ}
    (mem : x ∈ (ofFn rows cols f).entries) : ∃ r c, x = f r c := by
  have entries : (ofFn rows cols f).entries = (List.ofFn fun r : Fin rows =>
      Vector.ofFn fun c : Fin cols => f r.val c.val).flatMap Vector.toList :=
    congrArg (List.flatMap Vector.toList) Vector.toList_ofFn
  rw [entries, List.mem_flatMap] at mem
  obtain ⟨row, listed, mem⟩ := mem
  obtain ⟨r, rfl⟩ := List.mem_ofFn.mp listed
  rw [Vector.toList_ofFn] at mem
  obtain ⟨c, rfl⟩ := List.mem_ofFn.mp mem
  exact ⟨r, c, rfl⟩

namespace Flows

/-- The flow predicted on an edge in an hour, if there is a prediction and the edge is in it. -/
noncomputable def predicted? (f : Flows ℝ) (m : AssignmentMatrix) (e : EdgeId) (h : Hour) :
    Option ℝ :=
  (f.predict m).toOption.bind (·.get? e.index h.index)

/-- Flows for a matrix, with a given addend. -/
structure Suits (m : AssignmentMatrix) (bias : Option (Array ℝ)) (f : Flows ℝ) : Prop where
  shaped : f.Shaped m
  bias : f.bias = bias

/-- What an addend of a number for each hour, or of one for all of them, adds in an hour. -/
noncomputable def addendAt (bias : Option (Array ℝ)) (h : Hour) : ℝ :=
  bias.elim 0 fun addend => addend.getD (if addend.size = 1 then 0 else h.index) 0

theorem get?_addToColumns (g : Grid ℝ) (addend : Array ℝ) (r : Nat) (h : Hour) :
    (addToColumns g addend).get? r h.index =
      (g.get? r h.index).map (· + addendAt (some addend) h) := by
  have row : (addToColumns g addend).get? r h.index = (g.row.map fun row => row.mapIdx fun c x =>
      x + addend.getD (if addend.size = 1 then 0 else c) 0)[r]?.bind (·[h.index]?) := rfl
  rw [row, Vector.getElem?_map, Grid.get?]
  cases g.row[r]? with
  | none => rfl
  | some row => simp [addendAt]

/-- A prediction adds up the flows that pass an edge and the addend. -/
theorem predicted?_eq (suits : f.Suits m bias) (inside : e.index < m.edgeCount) (h : Hour) :
    f.predicted? m e h =
      some (((m.columnsOf e).map fun c => f.pairs.get c h.index).sum + addendAt bias h) := by
  obtain ⟨onEdges, product, rows, cols, sums⟩ := AssignmentMatrix.times_ok suits.shaped.rows
  have cell : onEdges.get? e.index h.index = some (onEdges.get e.index h.index) :=
    Grid.get?_eq (rows ▸ inside) (cols.trans suits.shaped.cols ▸ h.index_lt)
  rw [sums e h.index inside] at cell
  rw [predicted?, predict, predictWith, product, suits.bias]
  cases bias with
  | none =>
    rw [addendAt, Option.elim_none, add_zero]
    exact cell
  | some addend =>
    refine (get?_addToColumns onEdges addend e.index h).trans ?_
    rw [cell]
    rfl

/-- A single flow. -/
noncomputable def single (m : AssignmentMatrix) (bias : Option (Array ℝ)) (column : Nat) (h : Hour)
    (x : ℝ) : Flows ℝ where
  clusterCount := m.clusterCount
  pairs := .ofFn m.width hoursPerDay fun c k => if c = column ∧ k = h.index then x else 0
  bias := bias
  loss := 0
  mad := 0
  step := 0

theorem single_suits (column : Nat) (h : Hour) (x : ℝ) : (single m bias column h x).Suits m bias :=
  ⟨⟨rfl, rfl, rfl⟩, rfl⟩

/-- A flow that passes an edge raises the prediction by as much. -/
theorem predicted?_single {column : Nat} (passes : column ∈ m.columnsOf e)
    (inside : e.index < m.edgeCount) (x : ℝ) :
    (single m bias column h x).predicted? m e h = some (x + addendAt bias h) := by
  have flow (c : Nat) (mem : c ∈ m.columnsOf e) :
      (single m bias column h x).pairs.get c h.index = if c = column then x else 0 := by
    have width : c < m.width := List.mem_range.mp (List.mem_filter.mp mem).1
    have cell := Grid.get?_ofFn (fun c k => if c = column ∧ k = h.index then x else 0) width
      h.index_lt
    rw [Grid.get, single, cell]
    simp
  rw [predicted?_eq (single_suits column h x) inside, List.map_congr_left flow,
    List.sum_map_ite_eq]
  simp [List.count_eq_one_of_mem (m.nodup_columnsOf e) passes]

theorem single_nonneg {column : Nat} {x : ℝ} (nonneg : 0 ≤ x) :
    ∀ y ∈ (single m bias column h x).pairs.entries, 0 ≤ y := by
  intro y mem
  have mem : y ∈ (Grid.ofFn m.width hoursPerDay fun c k =>
    if c = column ∧ k = h.index then x else 0).entries := mem
  obtain ⟨c, k, rfl⟩ := Grid.exists_of_mem_ofFn mem
  split
  · exact nonneg
  · exact le_rfl

end Flows

/-! ## Uncovered sensors -/

variable {α : Type} [Scalar α] {t : Target α}

theorem mem_uncoveredSensors (target : t.Valid) (edgeCount : t.edgeCount = m.edgeCount) :
    e ∈ uncoveredSensors m t ↔ e ∈ t.sensors ∧ m.columnsOf e = [] := by
  rw [Sensor.uncoveredSensors_eq target edgeCount, List.mem_filter, List.isEmpty_iff]

/-- The edges are the sensors at which the flows make no difference. -/
structure Target.Unmatchable (t : Target α) (m : AssignmentMatrix) (bias : Option (Array ℝ))
    (edges : List EdgeId) : Prop where
  ascending : Id.Ascending edges
  mem_iff (e : EdgeId) : e ∈ edges ↔ e ∈ t.sensors ∧
    ∀ f g : Flows ℝ, f.Suits m bias → g.Suits m bias →
      ∀ h, f.predicted? m e h = g.predicted? m e h
  /-- The addend alone is predicted there. -/
  addend (e : EdgeId) : e ∈ edges → ∀ f : Flows ℝ, f.Suits m bias →
    ∀ h, f.predicted? m e h = some (Flows.addendAt bias h)
  /-- Elsewhere each value from the addend up is predicted by flows none of which is negative. -/
  attained (e : EdgeId) : e ∈ t.sensors → e ∉ edges → ∀ (h : Hour) (v : ℝ),
    Flows.addendAt bias h ≤ v → ∃ f : Flows ℝ, f.Suits m bias ∧
      (∀ x ∈ f.pairs.entries, 0 ≤ x) ∧ f.predicted? m e h = some v

/-- Without rounding, the sensors reported as uncovered are those at which the flows make no
difference, and gathering the columns by slots reports the same ones. -/
theorem uncovered_sensors (valid : m.Valid) (target : t.Valid)
    (edgeCount : t.edgeCount = m.edgeCount) (bias : Option (Array ℝ)) :
    t.Unmatchable m bias (uncoveredSensors m t) ∧
      Sensor.uncoveredBySlot m t.sensors = some (uncoveredSensors m t) := by
  have inside {e : EdgeId} (mem : e ∈ t.sensors) : e.index < m.edgeCount :=
    edgeCount ▸ target.inside e mem
  have addend (e : EdgeId) (mem : e ∈ uncoveredSensors m t) (f : Flows ℝ) (suits : f.Suits m bias)
      (h : Hour) : f.predicted? m e h = some (Flows.addendAt bias h) := by
    obtain ⟨sensor, none⟩ := (mem_uncoveredSensors target edgeCount).mp mem
    rw [Flows.predicted?_eq suits (inside sensor), none]
    simp
  have attained (e : EdgeId) (sensor : e ∈ t.sensors) (covered : e ∉ uncoveredSensors m t)
      (h : Hour) (v : ℝ) (above : Flows.addendAt bias h ≤ v) : ∃ f : Flows ℝ, f.Suits m bias ∧
        (∀ x ∈ f.pairs.entries, 0 ≤ x) ∧ f.predicted? m e h = some v := by
    have some_column : m.columnsOf e ≠ [] := fun none =>
      covered ((mem_uncoveredSensors target edgeCount).mpr ⟨sensor, none⟩)
    obtain ⟨column, passes⟩ := List.exists_mem_of_ne_nil _ some_column
    refine ⟨.single m bias column h (v - Flows.addendAt bias h), Flows.single_suits .., ?_, ?_⟩
    · exact Flows.single_nonneg (sub_nonneg.mpr above)
    · rw [Flows.predicted?_single passes (inside sensor), sub_add_cancel]
  refine ⟨⟨?_, fun e => ⟨fun mem => ⟨?_, ?_⟩, ?_⟩, addend, attained⟩,
    Sensor.uncoveredBySlot_eq valid target edgeCount⟩
  · rw [Sensor.uncoveredSensors_eq target edgeCount]
    exact target.ascending.filter _
  · exact ((mem_uncoveredSensors target edgeCount).mp mem).1
  · intro f g hf hg h
    rw [addend e mem f hf, addend e mem g hg]
  · rintro ⟨sensor, fixed⟩
    by_contra covered
    let h : Hour := ⟨0, by decide⟩
    obtain ⟨f, hf, -, low⟩ := attained e sensor covered h _ le_rfl
    obtain ⟨g, hg, -, high⟩ := attained e sensor covered h (Flows.addendAt bias h + 1) (by simp)
    rw [fixed f g hf hg h, high] at low
    simp at low

/-- Two sensors, of which the first is on a route. -/
def Target.halfCovered : Target Float32 :=
  ⟨Array.replicate 3 (Grid.zeros hoursPerDay), [⟨0⟩, ⟨2⟩]⟩

theorem Target.halfCovered_valid : Target.halfCovered.Valid where
  ascending := by simp [Target.halfCovered, Id.Ascending]
  inside := by decide
  finite := by decide

/-- Three edges, the last of them on no route. -/
def AssignmentMatrix.oneWay : AssignmentMatrix := ⟨3, 2, #[[], [⟨0⟩, ⟨1⟩], [⟨1⟩], []]⟩

theorem AssignmentMatrix.oneWay_valid : AssignmentMatrix.oneWay.Valid where
  positive := by decide
  width := rfl
  ascending := by simp [oneWay, Id.Ascending]
  inside := by
    have small : ∀ column ∈ oneWay.columns.toList, ∀ e ∈ column, e.index < 3 := by decide
    intro column e mem he
    exact small column mem e he
  diagonal := by
    rintro (_ | _ | _ | c) within
    · rfl
    · exact absurd within (by decide)
    · exact absurd within (by decide)
    · cases c <;> rfl

/-- An addend of one in each hour. -/
noncomputable def Flows.ones : Option (Array ℝ) := some (Array.replicate hoursPerDay 1)

theorem Flows.addendAt_ones (h : Hour) : addendAt ones h = 1 := by
  have inside : h.index < 24 := h.index_lt
  simp [addendAt, ones, hoursPerDay, inside]

/-- With an addend of one, one is predicted at the second sensor, and at the first all from one
up. -/
theorem uncovered_sensors_sample :
    uncoveredSensors .oneWay .halfCovered = [⟨2⟩] ∧
      (∀ f : Flows ℝ, f.Suits .oneWay Flows.ones → ∀ h, f.predicted? .oneWay ⟨2⟩ h = some 1) ∧
      ∀ h : Hour, ∃ f : Flows ℝ, f.Suits .oneWay Flows.ones ∧ (∀ x ∈ f.pairs.entries, 0 ≤ x) ∧
        f.predicted? .oneWay ⟨0⟩ h = some 5 := by
  have only : uncoveredSensors .oneWay .halfCovered = [⟨2⟩] := by decide
  have unmatchable := (uncovered_sensors AssignmentMatrix.oneWay_valid Target.halfCovered_valid
    (by decide) Flows.ones).1
  rw [only] at unmatchable
  refine ⟨only, fun f suits h => ?_, fun h => ?_⟩
  · rw [unmatchable.addend ⟨2⟩ (List.mem_singleton_self _) f suits h, Flows.addendAt_ones]
  · refine unmatchable.attained ⟨0⟩ (by decide) (by decide) h 5 ?_
    rw [Flows.addendAt_ones]
    norm_num

end RoadFlow
