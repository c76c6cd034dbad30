import RoadFlow.Proofs.Except
import RoadFlow.Proofs.Id
import RoadFlow.Sensor.Target

/-!
# Targets

Targets are accepted only with sensors on their own edges and with finite counts there
(`check_eq_ok`), and every way to make one sorts the sensors first.
-/

namespace RoadFlow.Target

variable {α : Type} [Scalar α] {t u : Target α}

/-- Sensors in ascending order on edges of the target, with finite counts. -/
structure Valid (t : Target α) : Prop where
  ascending : Id.Ascending t.sensors
  inside : ∀ e ∈ t.sensors, e.index < t.edgeCount
  finite : ∀ e ∈ t.sensors, t.badHour? e = none

theorem check_eq_ok : t.check = .ok u ↔ u = t ∧
    (∀ e ∈ t.sensors, e.index < t.edgeCount) ∧ ∀ e ∈ t.sensors, t.badHour? e = none := by
  rw [check]
  split
  · rename_i e found
    have outside := List.find?_some found
    rw [decide_eq_true_eq] at outside
    have mem := List.mem_of_find?_eq_some found
    refine ⟨nofun, fun ⟨_, inside, _⟩ => ?_⟩
    exact absurd (inside e mem) (Nat.not_lt_of_le outside)
  · rename_i inside
    have inside : ∀ e ∈ t.sensors, e.index < t.edgeCount := by simpa using inside
    split
    · rename_i e hour found
      obtain ⟨e', mem, bad⟩ := List.exists_of_findSome?_eq_some found
      refine ⟨nofun, fun ⟨_, _, finite⟩ => ?_⟩
      rw [finite e' mem] at bad
      cases bad
    · rename_i finite
      have finite : ∀ e ∈ t.sensors, t.badHour? e = none := by simpa using finite
      exact ⟨fun same => ⟨(Except.ok.inj same).symm, inside, finite⟩,
        fun ⟨same, _, _⟩ => congrArg Except.ok same.symm⟩

theorem check_valid (accepted : t.check = .ok u) (ascending : Id.Ascending t.sensors) :
    u.Valid := by
  obtain ⟨rfl, inside, finite⟩ := check_eq_ok.mp accepted
  exact ⟨ascending, inside, finite⟩

theorem ofGrid_valid {counts : Grid α} {sensors : List EdgeId}
    (accepted : ofGrid counts sensors = .ok t) : t.Valid := by
  unfold ofGrid at accepted
  split at accepted
  · cases accepted
  · exact check_valid accepted (Id.ascending_sortUnique _)

theorem ofObservations_valid {edgeCount : Nat} {observations : List (Observation α)}
    (accepted : ofObservations edgeCount observations = .ok t) : t.Valid := by
  obtain ⟨counts, -, accepted⟩ := bind_eq_ok.mp accepted
  exact check_valid accepted (Id.ascending_sortUnique _)

/-- The sensors among all edges are all sensors. -/
theorem Valid.filter_edges (valid : t.Valid) :
    ((List.range t.edgeCount).map Id.mk).filter t.isObserved = t.sensors := by
  refine Id.Ascending.ext ((Id.ascending_range _).filter _) valid.ascending fun e => ?_
  rw [List.mem_filter]
  constructor
  · rintro ⟨-, observed⟩
    exact List.contains_iff_mem.mp observed
  · intro mem
    refine ⟨List.mem_map.mpr ⟨e.index, ?_, rfl⟩, List.contains_iff_mem.mpr mem⟩
    exact List.mem_range.mpr (valid.inside e mem)

end RoadFlow.Target
