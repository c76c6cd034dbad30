import RoadFlow.Proofs.Fit.Beginning
import RoadFlow.Proofs.Fit.Best

/-!
# What a fit reads of its inputs

A fit reads the rows of the sensors and no others. Inputs that agree there give fits that cannot be
told apart by their parameters, their metrics, their best flows or what their runs tell, whatever
stands in the other rows (`other_rows_unread`).
-/

namespace RoadFlow

variable {α β σ : Type}

/-! ## Other inputs under a fit -/

/-- A fit with the same sensors over other inputs. -/
def Fit.onto (m' : AssignmentMatrix) (t' : Target α) (f : Fit α) : Fit α :=
  { f with matrix := m', target := t' }

/-- A run under way with its fit over other inputs. -/
def Run.onto (m' : AssignmentMatrix) (t' : Target α) (r : Run α σ) : Run α σ :=
  { r with fit := r.fit.onto m' t' }

def Finished.onto (m' : AssignmentMatrix) (t' : Target α) (r : Finished α σ) : Finished α σ :=
  { r with fit := r.fit.onto m' t' }

theorem Run.tells_onto (o : Observer α σ) (calls : List (Call α)) (m' : AssignmentMatrix)
    (t' : Target α) (r : Run α σ) :
    calls.foldl (tell o) (r.onto m' t') = (calls.foldl (tell o) r).onto m' t' := by
  induction calls generalizing r with
  | nil => rfl
  | cons call calls ih => exact ih (r.tell o call)

/-! ## Inputs that agree in the sensors' rows -/

section

variable [Scalar α] {m m' : AssignmentMatrix} {t t' : Target α} {c : FitSettings α}

/-- Matrices and targets of the same size and sensors that agree in the sensors' rows. -/
structure SameSensors (m m' : AssignmentMatrix) (t t' : Target α) : Prop where
  edgeCount : m'.edgeCount = m.edgeCount
  clusterCount : m'.clusterCount = m.clusterCount
  sensors : t'.sensors = t.sensors
  marks : ∀ e ∈ t.sensors, ∀ column < m.width, m'.marks e column = m.marks e column
  counts : ∀ e ∈ t.sensors, t'.countsOf e = t.countsOf e

theorem SameSensors.width (same : SameSensors m m' t t') : m'.width = m.width := by
  rw [AssignmentMatrix.width, AssignmentMatrix.width, same.clusterCount]

theorem AssignmentMatrix.getD_columnsByEdge (m : AssignmentMatrix) (e : EdgeId) :
    m.columnsByEdge.getD e.index [] = if e.index < m.edgeCount then m.columnsOf e else [] := by
  rw [Array.getD_eq_getD_getElem?]
  split
  · rename_i inside
    rw [getElem?_columnsByEdge inside]
    rfl
  · rename_i outside
    rw [columnsByEdge, Incidence.getElem?_holders_eq_none _ _ (Nat.le_of_not_lt outside)]
    rfl

theorem SameSensors.all_eq (same : SameSensors m m' t t') : Sensor.all m' t' = Sensor.all m t := by
  rw [Sensor.all, Sensor.all, same.sensors]
  refine List.map_congr_left fun e mem => ?_
  have columns : m'.columnsOf e = m.columnsOf e := by
    rw [AssignmentMatrix.columnsOf, AssignmentMatrix.columnsOf, same.width]
    exact List.filter_congr fun column inside =>
      same.marks e mem column (List.mem_range.mp inside)
  simp only [AssignmentMatrix.getD_columnsByEdge, same.edgeCount, columns, same.counts e mem]

namespace Fit

theorem ofParts_onto (same : SameSensors m m' t t') (pairs : Array (Hourly α))
    (bias : Option (Hourly α)) (stepsTaken : Nat) (best : Option (Flows α)) :
    ofParts m' t' c pairs bias stepsTaken best =
      (ofParts m t c pairs bias stepsTaken best).onto m' t' := by
  simp only [ofParts, onto, same.all_eq, same.width]

variable (same : SameSensors m m' t t') (rows : t'.edgeCount = t.edgeCount)

include same rows in
theorem start_onto : Fit.start m' t' c = (Fit.start m t c).map (onto m' t') := by
  rw [Fit.start, Fit.start, inputFault?_congr same.edgeCount rows same.sensors, same.width]
  cases inputFault? m t c with
  | some fault => rfl
  | none => exact congrArg Except.ok (ofParts_onto same ..)

include same rows in
theorem resume_onto (checkpoint : Flows α) :
    Fit.resume m' t' c checkpoint = (Fit.resume m t c checkpoint).map (onto m' t') := by
  have flows : resumedFlows m' checkpoint = resumedFlows m checkpoint := by
    rw [resumedFlows, resumedFlows, same.width]
  rw [Fit.resume, Fit.resume, inputFault?_congr same.edgeCount rows same.sensors,
    same.clusterCount, flows]
  cases inputFault? m t c with
  | some fault => rfl
  | none =>
    by_cases clusters : checkpoint.clusterCount ≠ m.clusterCount
    · simp only [if_pos clusters]
      rfl
    · simp only [if_neg clusters, ofParts_onto same]
      cases resumedFlows m checkpoint <;> cases resumedBias c checkpoint.bias <;> rfl

end Fit

end

/-! ## Steps and runs over other inputs -/

section

variable [Scalar α] [Scalar β] [Widens α β] {m' : AssignmentMatrix} (t' : Target α)

/-- A step reads the number of clusters, for its snapshot, and no more of the matrix. -/
theorem Fit.advance_onto {f : Fit α} (clusters : m'.clusterCount = f.matrix.clusterCount) :
    (f.onto m' t').advance =
      ⟨f.advance.fit.onto m' t', f.advance.metrics, f.advance.improved⟩ := by
  have snapshot (metrics : Metrics α) : (f.onto m' t').snapshot metrics = f.snapshot metrics := by
    simp only [Fit.snapshot, onto, clusters]
    rfl
  simp only [advance, snapshot]
  rfl

theorem Fit.advanceMany_onto {f : Fit α} (clusters : m'.clusterCount = f.matrix.clusterCount)
    (n : Nat) :
    (f.onto m' t').advanceMany n = ((f.advanceMany n).1.onto m' t', (f.advanceMany n).2) := by
  induction n generalizing f with
  | zero => rfl
  | succ n ih =>
    have later : m'.clusterCount = f.advance.fit.matrix.clusterCount := clusters
    simp only [advanceMany, advance_onto t' clusters, ih later]

theorem Run.step_onto (o : Observer α σ) {r : Run α σ}
    (clusters : m'.clusterCount = r.fit.matrix.clusterCount) :
    (r.onto m' t').step o = (r.step o).onto m' t' := by
  have taken : (r.onto m' t').fit.advance = _ := Fit.advance_onto t' clusters
  rw [step, taken]
  exact tells_onto o (callsOf r.fit.advance) m' t'
    { r with fit := r.fit.advance.fit, last := some r.fit.advance.metrics }

theorem Run.steps_onto (o : Observer α σ) (n : Nat) {r : Run α σ}
    (clusters : m'.clusterCount = r.fit.matrix.clusterCount) :
    Run.steps o n (r.onto m' t') = ((Run.steps o n r).1.onto m' t', (Run.steps o n r).2) := by
  induction n generalizing r with
  | zero => rfl
  | succ n ih =>
    have asked : (r.onto m' t').observer = r.observer := rfl
    rw [steps, steps, asked]
    rcases o.shouldStop r.observer with ⟨stop, s⟩
    cases stop with
    | true => rfl
    | false =>
      let told : Run α σ := { r with observer := s }
      have later : m'.clusterCount = (told.step o).fit.matrix.clusterCount := by
        rw [(step_eq o told).1]
        exact clusters
      have taken : (told.onto m' t').step o = (told.step o).onto m' t' :=
        step_onto t' o clusters
      exact (congrArg (Run.steps o n) taken).trans (ih later)

theorem Fit.run_onto (o : Observer α σ) (s : σ) {f : Fit α}
    (clusters : m'.clusterCount = f.matrix.clusterCount) :
    (f.onto m' t').run o s = (f.run o s).onto m' t' := by
  let r : Run α σ := ⟨f, s, none, #[]⟩
  have steps := Run.steps_onto t' o (f.settings.steps - f.stepsTaken) (r := r) clusters
  have same : (f.onto m' t').run o s = _ :=
    congrArg (fun out : Run α σ × Bool =>
      let summary := out.1.summary f.stepsTaken out.2
      let r := out.1.tell o (.fitEnd summary out.1.fit.best)
      (⟨r.fit, r.observer, summary, r.journal⟩ : Finished α σ)) steps
  exact same

end

/-! ## Fits that cannot be told apart -/

variable [Scalar α] [Scalar β] [Widens α β]

/-- Fits that are the same from outside after however many steps, and in any run from there on. -/
structure Fit.Indistinct (f g : Fit α) : Prop where
  pairs (n : Nat) : (g.advanceMany n).1.pairs = (f.advanceMany n).1.pairs
  bias (n : Nat) : (g.advanceMany n).1.bias = (f.advanceMany n).1.bias
  metrics (n : Nat) : (g.advanceMany n).2 = (f.advanceMany n).2
  best (n : Nat) : (g.advanceMany n).1.best = (f.advanceMany n).1.best
  exchanges (n : Nat) {σ : Type} (o : Observer α σ) (s : σ) :
    (g.advanceMany n).1.exchanges o s = (f.advanceMany n).1.exchanges o s
  observer (n : Nat) {σ : Type} (o : Observer α σ) (s : σ) :
    ((g.advanceMany n).1.run o s).observer = ((f.advanceMany n).1.run o s).observer
  summary (n : Nat) {σ : Type} (o : Observer α σ) (s : σ) :
    ((g.advanceMany n).1.run o s).summary = ((f.advanceMany n).1.run o s).summary
  journal (n : Nat) {σ : Type} (o : Observer α σ) (s : σ) :
    ((g.advanceMany n).1.run o s).journal = ((f.advanceMany n).1.run o s).journal

@[simp] theorem Fit.matrix_advanceMany (n : Nat) (f : Fit α) :
    (f.advanceMany n).1.matrix = f.matrix := by
  induction n generalizing f with
  | zero => rfl
  | succ n ih => exact ih f.advance.fit

theorem Fit.indistinct_onto {m' : AssignmentMatrix} (t' : Target α) {f : Fit α}
    (clusters : m'.clusterCount = f.matrix.clusterCount) : f.Indistinct (f.onto m' t') := by
  have steps (n : Nat) := advanceMany_onto t' clusters n
  have runs (n : Nat) {σ : Type} (o : Observer α σ) (s : σ) :
      ((f.onto m' t').advanceMany n).1.run o s = ((f.advanceMany n).1.run o s).onto m' t' := by
    rw [steps]
    exact run_onto t' o s (by rw [matrix_advanceMany, clusters])
  have exchanges (n : Nat) {σ : Type} (o : Observer α σ) (s : σ) :
      ((f.onto m' t').advanceMany n).1.exchanges o s = (f.advanceMany n).1.exchanges o s := by
    rw [Fit.exchanges, runs]
    rfl
  refine ⟨?_, ?_, ?_, ?_, exchanges, ?_, ?_, ?_⟩
  · intro n; rw [steps]; rfl
  · intro n; rw [steps]; rfl
  · intro n; rw [steps]
  · intro n; rw [steps]; rfl
  · intro n σ o s; rw [runs]; rfl
  · intro n σ o s; rw [runs]; rfl
  · intro n σ o s; rw [runs]; rfl

/-- Inputs that agree in the sensors' rows give fits that cannot be told apart, whether they begin
from random flows or from a checkpoint, and give them or refuse them alike. What the other rows hold
does not matter. -/
theorem other_rows_unread {m m' : AssignmentMatrix} {t t' : Target α}
    (same : SameSensors m m' t t') (c : FitSettings α) :
    (∀ f g, Fit.start m t c = .ok f → Fit.start m' t' c = .ok g → f.Indistinct g) ∧
    (∀ checkpoint f g, Fit.resume m t c checkpoint = .ok f →
      Fit.resume m' t' c checkpoint = .ok g → f.Indistinct g) ∧
    (t'.edgeCount = t.edgeCount →
      (∀ fault, Fit.start m' t' c = .error fault ↔ Fit.start m t c = .error fault) ∧
      ∀ checkpoint fault, Fit.resume m' t' c checkpoint = .error fault ↔
        Fit.resume m t c checkpoint = .error fault) := by
  have rows {f g : Fit α} (begun : f.Begun m t c) (begun' : g.Begun m' t' c) :
      t'.edgeCount = t.edgeCount := by
    rw [Fit.edgeCount_eq begun.fine, Fit.edgeCount_eq begun'.fine, same.edgeCount]
  have clusters {f : Fit α} (begun : f.Begun m t c) :
      m'.clusterCount = f.matrix.clusterCount := by
    rw [begun.eq_ofParts]
    exact same.clusterCount
  refine ⟨fun f g started started' => ?_, fun checkpoint f g resumed resumed' => ?_,
    fun rows => ⟨fun fault => ?_, fun checkpoint fault => ?_⟩⟩
  · have begun : f.Begun m t c := .start started
    rw [Fit.start_onto same (rows begun (.start started')), started] at started'
    cases started'
    exact Fit.indistinct_onto t' (clusters begun)
  · have begun : f.Begun m t c := .resume checkpoint resumed
    rw [Fit.resume_onto same (rows begun (.resume checkpoint resumed')), resumed] at resumed'
    cases resumed'
    exact Fit.indistinct_onto t' (clusters begun)
  · rw [Fit.start_onto same rows]
    cases Fit.start m t c <;> simp [Except.map]
  · rw [Fit.resume_onto same rows]
    cases Fit.resume m t c checkpoint <;> simp [Except.map]

/-- The routes of the sample swapped, which only the edge with counts does not show. -/
def AssignmentMatrix.swapped : AssignmentMatrix := ⟨3, 2, #[[], [⟨1⟩, ⟨2⟩], [⟨0⟩, ⟨1⟩], []]⟩

/-- The sample with counts that are not finite on the edges without a sensor. -/
def Target.unfinished : Target Float32 :=
  ⟨#[.replicate _ (0 / 0), Grid.zeros hoursPerDay, .replicate _ (1 / 0)], [⟨1⟩]⟩

theorem SameSensors.sample : SameSensors .sample .swapped .sample .unfinished where
  edgeCount := rfl
  clusterCount := rfl
  sensors := rfl
  marks := by decide
  counts := by
    intro e mem
    obtain rfl := List.mem_singleton.mp mem
    rfl

theorem other_rows_unread_sample :
    ∃ f g, Fit.start .sample .sample .standard = .ok f ∧
      Fit.start .swapped .unfinished .standard = .ok g ∧ f.Indistinct g := by
  obtain ⟨f, started⟩ := Fit.start_sample
  have started' : Fit.start .swapped .unfinished .standard = .ok (f.onto .swapped .unfinished) := by
    rw [Fit.start_onto .sample rfl, started]
    rfl
  obtain ⟨alike, -, -⟩ := other_rows_unread .sample FitSettings.standard
  exact ⟨f, _, started, started', alike _ _ started started'⟩

end RoadFlow
