import RoadFlow.Fit.State
import RoadFlow.Proofs.Fit.Masking
import RoadFlow.Proofs.Matrix.Columns
import RoadFlow.Proofs.Sensor.Target

/-!
# Sensors by slots

The columns that pass each sensor can also be gathered in one pass over the marks of a matrix: each
sensor has a slot, each edge knows the slot of its sensor, and a column is entered at the slots of
its edges. With a check on every index this never fails, and each slot gets the columns of its own
sensor (`columnsBySlot_eq`). So the sensors whose slots stay empty are the uncovered ones
(`uncoveredBySlot_eq`).
-/

namespace RoadFlow.Sensor

variable {α : Type} [Scalar α] {m : AssignmentMatrix} {t : Target α} {sensors edges : List EdgeId}
  {slots : Array (Option Nat)} {edgeCount : Nat}

/-- The slot of each edge: the place of its sensor, if it has one. -/
def slotsOf (edgeCount : Nat) (sensors : List EdgeId) : Option (Array (Option Nat)) :=
  sensors.zipIdx.foldlM
    (fun slots (e, place) =>
      if e.index < slots.size then some (slots.setIfInBounds e.index (some place)) else none)
    (Array.replicate edgeCount none)

/-- Enters a column at the slot of an edge, if the edge has one. -/
def enter (slots : Array (Option Nat)) (column : Nat) (lists : Array (List Nat)) (e : EdgeId) :
    Option (Array (List Nat)) := do
  match ← slots[e.index]? with
  | none => some lists
  | some place =>
    if place < lists.size then some (lists.modify place (· ++ [column])) else none

/-- The columns that pass each sensor. -/
def columnsBySlot (m : AssignmentMatrix) (sensors : List EdgeId) : Option (Array (List Nat)) := do
  let slots ← slotsOf m.edgeCount sensors
  (List.range m.width).foldlM (fun lists c => (m.column c).foldlM (enter slots c) lists)
    (Array.replicate sensors.length [])

/-- The sensors whose slots stay empty. -/
def uncoveredBySlot (m : AssignmentMatrix) (sensors : List EdgeId) : Option (List EdgeId) := do
  let lists ← columnsBySlot m sensors
  some (((lists.toList.zip sensors).filter (·.1.isEmpty)).map (·.2))

theorem idxOf?_concat {e : EdgeId} (new : e ∉ sensors) (x : EdgeId) :
    (sensors ++ [e]).idxOf? x = if e = x then some sensors.length else sensors.idxOf? x := by
  simp only [List.idxOf?, List.findIdx?_append]
  split
  · rename_i same
    subst same
    have none : sensors.findIdx? (· == e) = none := by
      rw [List.findIdx?_eq_none_iff]
      intro y mem
      exact beq_false_of_ne fun same => new (same ▸ mem)
    simp [none]
  · rename_i other
    simp [other]

theorem slotsOf_eq (inside : ∀ e ∈ sensors, e.index < edgeCount) (nodup : sensors.Nodup) :
    slotsOf edgeCount sensors = some (.ofFn fun i : Fin edgeCount => sensors.idxOf? ⟨i⟩) := by
  unfold slotsOf
  induction sensors using List.reverseRecOn with
  | nil =>
    refine congrArg some (Array.ext_getElem? fun i => ?_)
    simp [Array.getElem?_replicate, Array.getElem?_ofFn]
  | append_singleton sensors e ih =>
    have new : e ∉ sensors := fun mem => List.disjoint_of_nodup_append nodup mem List.mem_cons_self
    have small : e.index < edgeCount := inside e (by simp)
    rw [List.zipIdx_append, List.foldlM_append,
      ih (fun e mem => inside e (by simp [mem])) nodup.of_append_left]
    simp only [List.zipIdx_cons, List.zipIdx_nil, List.foldlM_cons, List.foldlM_nil, bind, pure,
      Option.bind_some, Array.size_ofFn, if_pos small, Nat.zero_add]
    refine congrArg some (Array.ext_getElem? fun i => ?_)
    rw [Array.getElem?_setIfInBounds, Array.getElem?_ofFn, Array.getElem?_ofFn, Array.size_ofFn]
    by_cases same : e.index = i
    · subst same
      simp [small, idxOf?_concat new]
    · have other : e ≠ ⟨i⟩ := fun h => same (congrArg Id.index h)
      simp [same, other, idxOf?_concat new]

/-- A column is entered with the sensor of the edge. -/
theorem enter_eq {lists : EdgeId → List Nat} {column : Nat} {e : EdgeId} (nodup : sensors.Nodup)
    (slot : slots[e.index]? = some (sensors.idxOf? e)) :
    enter slots column (sensors.map lists).toArray e =
      some (sensors.map fun s => if s = e then lists s ++ [column] else lists s).toArray := by
  rw [enter, slot, Option.bind_eq_bind, Option.bind_some]
  split
  · rename_i absent
    rw [List.idxOf?_eq_none_iff] at absent
    refine congrArg some (congrArg List.toArray (List.map_congr_left fun s mem => ?_))
    have other : s ≠ e := fun same => absent (same ▸ mem)
    rw [if_neg other]
  · rename_i place found
    obtain ⟨inside, here, -⟩ := List.idxOf?_eq_some_iff.mp found
    rw [if_pos (by simpa using inside)]
    refine congrArg some (Array.ext_getElem? fun i => ?_)
    rw [Array.getElem?_modify]
    by_cases same : place = i
    · subst same
      simp [inside, here]
    · have other (h : i < sensors.length) : sensors[i] ≠ e := fun there =>
        same ((nodup.getElem_inj_iff).mp (here.trans there.symm))
      by_cases h : i < sensors.length
      · simp [same, h, other h]
      · simp [same, h]

theorem enter_edges {lists : EdgeId → List Nat} {column : Nat} (nodup : sensors.Nodup)
    (held : ∀ e ∈ edges, slots[e.index]? = some (sensors.idxOf? e)) (distinct : edges.Nodup) :
    edges.foldlM (enter slots column) (sensors.map lists).toArray =
      some (sensors.map fun s => if s ∈ edges then lists s ++ [column] else lists s).toArray := by
  induction edges generalizing lists with
  | nil => simp
  | cons e edges ih =>
    rw [List.forall_mem_cons] at held
    obtain ⟨new, distinct⟩ := List.nodup_cons.mp distinct
    rw [List.foldlM_cons, enter_eq nodup held.1]
    refine (ih held.2 distinct).trans ?_
    refine congrArg some (congrArg List.toArray (List.map_congr_left fun s _ => ?_))
    by_cases same : s = e
    · subst same
      simp [new]
    · simp [same]

/-- Each sensor gets the columns that mark its edge. -/
theorem columnsBySlot_eq (valid : m.Valid) (inside : ∀ e ∈ sensors, e.index < m.edgeCount)
    (nodup : sensors.Nodup) :
    columnsBySlot m sensors = some (sensors.map m.columnsOf).toArray := by
  rw [columnsBySlot, slotsOf_eq inside nodup, Option.bind_eq_bind, Option.bind_some]
  unfold AssignmentMatrix.columnsOf
  induction m.width with
  | zero => simp [List.map_const']
  | succ k ih =>
    obtain ⟨ascending, small⟩ := valid.column k
    rw [List.range_succ, List.foldlM_append, ih, Option.bind_eq_bind, Option.bind_some,
      List.foldlM_cons, enter_edges nodup _ ascending.nodup]
    · refine congrArg some (congrArg List.toArray (List.map_congr_left fun e _ => ?_))
      simp only [List.filter_append, List.filter_cons, List.filter_nil, AssignmentMatrix.marks,
        List.contains_iff_mem]
      split <;> simp
    · intro e mem
      simp [small e mem]

theorem uncoveredSensors_eq (target : t.Valid) (edgeCount : t.edgeCount = m.edgeCount) :
    uncoveredSensors m t = t.sensors.filter fun e => (m.columnsOf e).isEmpty := by
  refine List.filter_congr fun e mem => ?_
  rw [AssignmentMatrix.getD_columnsByEdge, if_pos (edgeCount ▸ target.inside e mem)]

theorem uncoveredBySlot_eq (valid : m.Valid) (target : t.Valid)
    (edgeCount : t.edgeCount = m.edgeCount) :
    uncoveredBySlot m t.sensors = some (uncoveredSensors m t) := by
  have inside : ∀ e ∈ t.sensors, e.index < m.edgeCount := edgeCount ▸ target.inside
  rw [uncoveredBySlot, columnsBySlot_eq valid inside target.ascending.nodup,
    uncoveredSensors_eq target edgeCount]
  refine congrArg some ?_
  induction t.sensors with
  | nil => rfl
  | cons e sensors ih =>
    simp only [List.map_cons, List.zip_cons_cons, List.filter_cons] at ih ⊢
    split <;> simp [ih]

end RoadFlow.Sensor
