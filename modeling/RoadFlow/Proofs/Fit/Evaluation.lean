import RoadFlow.Proofs.Fit.Hours
import RoadFlow.Proofs.Fit.Masking
import RoadFlow.Proofs.Fit.Numbers
import RoadFlow.Proofs.Fit.Resumption
import RoadFlow.Proofs.Matrix.Scatter
import RoadFlow.Proofs.Sensor.Target

/-!
# What a step measures

A fit looks its matrix up by sensors. What it measures is what the matrix gives as an operator: the
predictions are rows of the product with the flows, and the gradients come from the transposed
product with the slopes at all edges, which are zero at those without a sensor. Sums are taken in
the same order on both sides, so rounding makes no difference (`evaluation_matches_operator`).
-/

namespace RoadFlow

variable {α β γ : Type}

theorem Grid.ofRows_congr {rows cols : Nat} {f g : Nat → Vector γ cols}
    (same : ∀ r < rows, f r = g r) : ofRows rows cols f = ofRows rows cols g := by
  have rowwise : (fun r : Fin rows => f r.val) = fun r => g r.val := funext fun r => same r r.isLt
  rw [ofRows, ofRows, rowwise]

variable [Scalar α] [Scalar β] [Widens α β]

/-- One addend for each hour, added to all rows. -/
theorem Flows.addToColumns_ofRows {rows : Nat} (f : Nat → Hourly α) (addend : Hourly α) :
    addToColumns (.ofRows rows hoursPerDay f) addend.toArray =
      .ofRows rows hoursPerDay fun r => Grid.addRows (f r) addend := by
  have size : ¬ addend.toArray.size = 1 := by
    rw [addend.size_toArray]
    decide
  have row (x : Hourly α) :
      (x.mapIdx fun c x => x + addend.toArray.getD c 0) = Grid.addRows x addend := by
    refine Hour.ext_entry fun h => ?_
    simp [Grid.addRows, Hour.entry, Vector.get_eq_getElem, h.index_lt]
  simp only [addToColumns, Grid.ofRows, if_neg size, row]
  congr 1
  ext r hr i hi
  simp

/-! ## Differences from the counts -/

namespace Target

variable {t : Target α} {h : Hour}

/-- What flows on an edge in excess of its counts. -/
def excess (t : Target α) (onEdges : EdgeId → Hourly α) (e : EdgeId) : Hourly α :=
  (onEdges e).zipWith (· - ·) (t.countsOf e)

/-- The differences of edge flows from the counts in all hours of all sensors. -/
def differences (t : Target α) (onEdges : EdgeId → Hourly α) : List α :=
  t.sensors.flatMap fun e => (t.excess onEdges e).toList

/-- The gradient of the mean square difference at the flow of a sensor: twice the difference over the
number of hours of all sensors. -/
def slope (t : Target α) (onEdges : EdgeId → Hourly α) (e : EdgeId) : Hourly α :=
  let scale : α := Widens.narrow (Scalar.ofNat 2 / Scalar.ofNat (t.sensors.length * hoursPerDay))
  (t.excess onEdges e).map (· * scale)

/-- The gradient of the mean square difference at the flow of each edge. -/
def slopes (t : Target α) (onEdges : EdgeId → Hourly α) : Grid α :=
  .ofRows t.edgeCount hoursPerDay fun e =>
    if t.isObserved ⟨e⟩ then t.slope onEdges ⟨e⟩ else Grid.zeros hoursPerDay

theorem length_differences (t : Target α) (onEdges : EdgeId → Hourly α) :
    (t.differences onEdges).length = t.sensors.length * hoursPerDay := by
  simp [differences, List.length_flatMap]

/-- A sum of slopes over edges is one over the sensors among them. -/
theorem entry_sumRows_slopes [Scalar.Neutral α] (onEdges : EdgeId → Hourly α)
    {edges : List EdgeId} (inside : ∀ e ∈ edges, e.index < t.edgeCount) :
    h.entry ((t.slopes onEdges).sumRows (edges.map (·.index))) =
      (edges.filter t.isObserved).foldl (fun sum e => sum + h.entry (t.slope onEdges e)) 0 := by
  let term (e : EdgeId) : α := if t.isObserved e then h.entry (t.slope onEdges e) else 0
  have row {e : EdgeId} (he : e.index < t.edgeCount) :
      ((t.slopes onEdges).row.toArray.map h.entry).getD e.index 0 = term e := by
    have zero : h.entry (Grid.zeros hoursPerDay : Hourly α) = 0 := h.entry_replicate 0
    simp only [slopes, Grid.ofRows, Vector.toArray_ofFn, Array.getD_eq_getD_getElem?,
      Array.getElem?_map, Array.getElem?_ofFn, dif_pos he, Option.map_some, Option.getD_some,
      apply_ite h.entry, zero, term]
  have sums : h.entry ((t.slopes onEdges).sumRows (edges.map (·.index))) =
      edges.foldl (fun sum e => sum + term e) 0 := by
    refine (Grid.entry_sumChosen h ..).trans ?_
    rw [sumOf, List.foldl_map]
    exact List.foldl_ext _ _ _ fun sum e he => by rw [row (inside e he)]
  have blank (e : EdgeId) (_ : e ∈ edges) (blind : t.isObserved e = false) : term e = 0 :=
    if_neg (Bool.eq_false_iff.mp blind)
  rw [sums, Scalar.Neutral.foldl_filter edges blank]
  refine List.foldl_ext _ _ _ fun sum e he => ?_
  exact congrArg (sum + ·) (if_pos (List.mem_filter.mp he).2)

end Target

/-- The mean of a term, with the sum taken in the wider arithmetic. -/
def Deviation.mean (term : α → β) (xs : List α) : α :=
  Widens.narrow (xs.foldl (fun sum x => sum + term x) 0 / Scalar.ofNat xs.length)

namespace Fit

variable {m : AssignmentMatrix} {t : Target α} {c : FitSettings α} {f : Fit α} {column : Nat}
  {h : Hour}

/-! ## Fits of a matrix and a target -/

/-- A fit that measures the flows of a matrix against a target: it has a row for each pair and the
sensors of each pair at hand, whatever its parameters. -/
structure Measures (m : AssignmentMatrix) (t : Target α) (f : Fit α) : Prop where
  edgeCount : t.edgeCount = m.edgeCount
  matrix : f.matrix = m
  sensors : f.sensors = Sensor.all m t
  passed : f.passed = Sensor.passed m.width f.sensors
  width : f.pairs.size = m.width

theorem measures_ofParts {pairs : Array (Hourly α)} (edgeCount : t.edgeCount = m.edgeCount)
    (width : pairs.size = m.width) (bias : Option (Hourly α)) (stepsTaken : Nat)
    (best : Option (Flows α)) : (ofParts m t c pairs bias stepsTaken best).Measures m t :=
  ⟨edgeCount, rfl, rfl, rfl, (Array.size_map ..).trans width⟩

theorem Measures.advance (measures : f.Measures m t) : f.advance.fit.Measures m t :=
  ⟨measures.edgeCount, measures.matrix, measures.sensors, measures.passed,
    Array.size_mapIdx.trans measures.width⟩

theorem Measures.advanceMany (measures : f.Measures m t) (n : Nat) :
    (f.advanceMany n).1.Measures m t := by
  induction n with
  | zero => exact measures
  | succ n ih =>
    rw [advanceMany_succ]
    exact ih.advance

theorem Begun.measures [Scalar.Lawful α] (begun : f.Begun m t c) : f.Measures m t := by
  have width : f.flows.size = m.width := (Array.size_map ..).trans begun.sound.width
  rw [begun.eq_ofParts]
  exact measures_ofParts (edgeCount_eq begun.fine) width ..

/-! ## What is measured -/

/-- The flow on an edge: those of the pairs that mark it, added up in ascending order, and the
addend. -/
def onEdge (f : Fit α) (e : EdgeId) : Hourly α :=
  let sum := Grid.sumChosen f.flows (f.matrix.columnsOf e)
  f.addend.elim sum (Grid.addRows sum)

/-- The gradient by which a step moves a pair. -/
def pairGradient (f : Fit α) (column : Nat) : Hourly α :=
  Deviation.pairGradient (Deviation.slopes f.residuals) (f.passed.getD column [])

/-- The gradient by which a step moves the addend. -/
def biasGradient (f : Fit α) : Hourly α := Deviation.biasGradient (Deviation.slopes f.residuals)

namespace Measures

variable (measures : f.Measures m t) (valid : t.Valid)

include measures valid

theorem sensors_eq : f.sensors = t.sensors.map fun e => ⟨m.columnsOf e, t.countsOf e⟩ := by
  rw [measures.sensors, Sensor.all]
  refine List.map_congr_left fun e mem => ?_
  rw [AssignmentMatrix.getD_columnsByEdge, if_pos]
  rw [← measures.edgeCount]
  exact valid.inside e mem

theorem predictions_eq :
    f.sensors.map (·.prediction f.flows f.addend) = t.sensors.map f.onEdge := by
  rw [measures.sensors_eq valid, List.map_map]
  refine List.map_congr_left fun e _ => ?_
  rw [onEdge, measures.matrix]
  cases f.addend <;> rfl

theorem residuals_eq : f.residuals = t.sensors.map (t.excess f.onEdge) := by
  have predictions := measures.predictions_eq valid
  rw [measures.sensors_eq valid, List.map_map, List.map_inj_left] at predictions
  rw [residuals, measures.sensors_eq valid, List.map_map]
  refine List.map_congr_left fun e mem => ?_
  exact congrArg (fun row => row.zipWith (· - ·) (t.countsOf e)) (predictions e mem)

theorem slopes_eq :
    Deviation.slopes f.residuals = (t.sensors.map (t.slope f.onEdge)).toArray := by
  rw [Deviation.slopes, Deviation.cellCount, measures.residuals_eq valid, List.length_map,
    List.map_map]
  rfl

theorem passed_eq (inside : column < m.width) :
    f.passed.getD column [] = (List.range t.sensors.length).filter fun place =>
      t.sensors[place]?.any (m.marks · column) := by
  rw [measures.passed, Sensor.passed, Array.getD_eq_getD_getElem?,
    Incidence.getElem?_holders _ _ inside, Option.getD_some, measures.sensors_eq valid]
  simp only [List.map_map, List.size_toArray, List.length_map]
  refine List.filter_congr fun place hp => ?_
  rw [List.mem_range] at hp
  simp [hp, AssignmentMatrix.columnsOf, inside]

/-- The gradient of a pair comes from the sensors that its route passes. -/
theorem entry_pairGradient (inside : column < m.width) :
    h.entry (f.pairGradient column) = (t.sensors.filter (m.marks · column)).foldl
      (fun sum e => sum + h.entry (t.slope f.onEdge e)) 0 := by
  rw [pairGradient, Deviation.pairGradient, Grid.entry_sumChosen, sumOf,
    measures.passed_eq valid inside, measures.slopes_eq valid, ← foldl_places t.sensors]
  refine List.foldl_ext _ _ _ fun sum place mem => ?_
  have place_lt := List.mem_range.mp (List.mem_filter.mp mem).1
  simp [place_lt]

theorem entry_biasGradient :
    h.entry f.biasGradient = t.sensors.foldl
      (fun sum e => sum + h.entry (t.slope f.onEdge e)) 0 := by
  rw [biasGradient, Deviation.entry_biasGradient, measures.slopes_eq valid, List.map_toArray,
    List.foldl_toArray, List.map_map, List.foldl_map]
  rfl

omit [Widens α β] in
/-- A mean over all hours of all sensors. -/
theorem sumOver_eq (term : α → β) :
    Deviation.sumOver term f.residuals / Deviation.cellCount f.residuals =
      (t.differences f.onEdge).foldl (fun sum x => sum + term x) 0 /
        Scalar.ofNat (t.differences f.onEdge).length := by
  rw [t.length_differences, Deviation.cellCount, Deviation.sumOver, measures.residuals_eq valid,
    List.length_map, Target.differences, List.foldl_flatMap, List.foldl_map]

theorem current_loss :
    f.current.loss = Deviation.mean Deviation.square (t.differences f.onEdge) :=
  congrArg Widens.narrow (measures.sumOver_eq valid Deviation.square)

theorem current_mad :
    f.current.mad = Deviation.mean (fun x => Widens.widen (Scalar.abs x))
      (t.differences f.onEdge) :=
  congrArg Widens.narrow (measures.sumOver_eq valid _)

omit valid in
/-- The predictions on all edges. -/
theorem predict_eq :
    f.predict = .ok (.ofRows m.edgeCount hoursPerDay fun e => f.onEdge ⟨e⟩) := by
  have rows : ¬ f.grid.rows ≠ m.width :=
    not_not.mpr ((Array.size_map ..).trans measures.width)
  have product : m.times f.grid =
      .ok (.ofRows m.edgeCount hoursPerDay fun e => Grid.sumChosen f.flows (m.columnsOf ⟨e⟩)) := by
    rw [AssignmentMatrix.times, if_neg rows]
    refine congrArg Except.ok (Grid.ofRows_congr fun e he => ?_)
    have columns := m.getD_columnsByEdge ⟨e⟩
    rw [if_pos he] at columns
    exact congrArg (Grid.sumChosen f.flows) columns
  rw [predict, Flows.predictWith, measures.matrix, product]
  cases held : f.addend with
  | none =>
    refine congrArg Except.ok (Grid.ofRows_congr fun e _ => ?_)
    rw [onEdge, held, measures.matrix]
    rfl
  | some addend =>
    refine congrArg Except.ok ((Flows.addToColumns_ofRows _ addend).trans ?_)
    refine Grid.ofRows_congr fun e _ => ?_
    rw [onEdge, held, measures.matrix]
    rfl

end Measures

end Fit

/-! ## Products -/

section

variable {m : AssignmentMatrix} {t : Target α} {f : Fit α}

/-- The sensors among the edges of a route are the sensors that the route passes. -/
theorem Target.Valid.filter_column (target : t.Valid) (valid : m.Valid) (c : Nat) :
    (m.column c).filter t.isObserved = t.sensors.filter (m.marks · c) := by
  refine Id.Ascending.ext ((valid.column c).1.filter _) (target.ascending.filter _) fun e => ?_
  simp [isObserved, AssignmentMatrix.marks, and_comm]

namespace Fit.Measures

variable [Scalar.Neutral α]

/-- The gradients of all pairs are the transposed product with the slopes at all edges. -/
theorem transposeTimes_slopes (measures : f.Measures m t) (target : t.Valid) (valid : m.Valid) :
    m.transposeTimes (t.slopes f.onEdge) = .ok (.ofRows m.width hoursPerDay f.pairGradient) := by
  have rows : ¬ (t.slopes f.onEdge).rows ≠ m.edgeCount := not_not.mpr measures.edgeCount
  rw [AssignmentMatrix.transposeTimes, if_neg rows]
  refine congrArg Except.ok (Grid.ofRows_congr fun c hc => Hour.ext_entry fun h => ?_)
  have inside (e : EdgeId) (he : e ∈ m.column c) : e.index < t.edgeCount := by
    rw [measures.edgeCount]
    exact (valid.column c).2 e he
  -- one side goes by the order of the sensors, the other by the order of the column
  rw [measures.entry_pairGradient target hc, Target.entry_sumRows_slopes _ inside,
    target.filter_column valid]

/-- The gradient of the addend is the sum of the slopes at all edges. -/
theorem biasGradient_eq (measures : f.Measures m t) (target : t.Valid) :
    f.biasGradient = (t.slopes f.onEdge).sumRows (List.range t.edgeCount) := by
  have edges : List.range t.edgeCount =
      ((List.range t.edgeCount).map Id.mk : List EdgeId).map (·.index) := by
    rw [List.map_map]
    exact (List.map_id _).symm
  have inside (e : EdgeId) (he : e ∈ (List.range t.edgeCount).map Id.mk) :
      e.index < t.edgeCount := by
    obtain ⟨i, hi, rfl⟩ := List.mem_map.mp he
    exact List.mem_range.mp hi
  refine Hour.ext_entry fun h => ?_
  rw [edges, measures.entry_biasGradient target, Target.entry_sumRows_slopes _ inside,
    target.filter_edges]

end Fit.Measures

/-- What a fit measures is what its matrix gives as an operator, to the last digit. -/
structure Fit.MatchesOperator (m : AssignmentMatrix) (t : Target α) (f : Fit α) : Prop where
  predict : f.predict = .ok (.ofRows m.edgeCount hoursPerDay fun e => f.onEdge ⟨e⟩)
  /-- What is measured at the sensors are their rows of the predictions. -/
  predictions : f.sensors.map (·.prediction f.flows f.addend) = t.sensors.map f.onEdge
  /-- There is a difference from the counts for each hour of each sensor. -/
  length : (t.differences f.onEdge).length = t.sensors.length * hoursPerDay
  loss : f.current.loss = Deviation.mean Deviation.square (t.differences f.onEdge)
  mad : f.current.mad =
    Deviation.mean (fun x => Widens.widen (Scalar.abs x)) (t.differences f.onEdge)
  /-- The gradients of the pairs are a transposed product. -/
  pairGradient :
    m.transposeTimes (t.slopes f.onEdge) = .ok (.ofRows m.width hoursPerDay f.pairGradient)
  biasGradient : f.biasGradient = (t.slopes f.onEdge).sumRows (List.range t.edgeCount)
  /-- A step tells this deviation and moves the parameters by these gradients. -/
  told : f.advance.metrics = ⟨f.stepsTaken, f.current.loss, f.current.mad⟩
  pairs : f.advance.fit.pairs = f.pairs.mapIdx fun c row => (row.move (f.pairGradient c)).cut
  bias : f.advance.fit.bias = f.bias.map fun row => row.move f.biasGradient

/-- However its parameters came about, a fit measures by sensors what its matrix gives as an
operator. -/
theorem evaluation_matches_operator [Scalar.Neutral α] (measures : f.Measures m t)
    (target : t.Valid) (valid : m.Valid) : f.MatchesOperator m t where
  predict := measures.predict_eq
  predictions := measures.predictions_eq target
  length := t.length_differences _
  loss := measures.current_loss target
  mad := measures.current_mad target
  pairGradient := measures.transposeTimes_slopes target valid
  biasGradient := measures.biasGradient_eq target
  told := rfl
  pairs := rfl
  bias := rfl

end

theorem Target.sample_valid : Target.sample.Valid where
  ascending := List.pairwise_singleton _ _
  inside := by decide
  finite := by decide +kernel

theorem evaluation_matches_operator_sample :
    ∃ f, Fit.start .sample .sample .standard = .ok f ∧
      ∀ n, (f.advanceMany n).1.MatchesOperator .sample .sample := by
  obtain ⟨f, started⟩ := Fit.start_sample
  have measures := (Fit.Begun.start started).measures
  refine ⟨f, started, fun n => ?_⟩
  exact evaluation_matches_operator (measures.advanceMany n) Target.sample_valid
    AssignmentMatrix.sample_valid

end RoadFlow
