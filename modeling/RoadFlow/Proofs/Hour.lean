import Mathlib.Data.List.FinRange
import Mathlib.Data.List.Nodup
import RoadFlow.Hour

/-!
# Rows of hours

An hour has one entry in every row of a day.
-/

namespace RoadFlow.Hour

variable {γ δ : Type} (h : Hour)

theorem index_injective : Function.Injective Hour.index := by
  rintro ⟨i, _⟩ ⟨j, _⟩ same
  cases same
  rfl

theorem mem_all : h ∈ all := by
  rw [all, List.mem_map]
  exact ⟨⟨h.index, h.index_lt⟩, List.mem_finRange _, rfl⟩

theorem nodup_all : all.Nodup := by
  apply List.Nodup.map _ (List.nodup_finRange _)
  intro i j same
  exact Fin.ext (congrArg Hour.index same)

/-- The entry of an hour in a row of them. -/
def entry (h : Hour) (row : Vector γ hoursPerDay) : γ := row.get ⟨h.index, h.index_lt⟩

theorem entry_eq_getElem (row : Vector γ hoursPerDay) (inside : h.index < hoursPerDay) :
    h.entry row = row[h.index] := rfl

@[simp] theorem entry_map (f : γ → δ) (row : Vector γ hoursPerDay) :
    h.entry (row.map f) = f (h.entry row) := by
  simp [h.entry_eq_getElem _ h.index_lt]

@[simp] theorem entry_ofFn (f : Fin hoursPerDay → γ) :
    h.entry (.ofFn f) = f ⟨h.index, h.index_lt⟩ := by
  simp [h.entry_eq_getElem _ h.index_lt]

@[simp] theorem entry_replicate (x : γ) : h.entry (.replicate hoursPerDay x) = x := by
  simp [h.entry_eq_getElem _ h.index_lt]

@[simp] theorem entry_zipWith {ε : Type} (f : γ → δ → ε) (xs : Vector γ hoursPerDay)
    (ys : Vector δ hoursPerDay) :
    h.entry (xs.zipWith f ys) = f (h.entry xs) (h.entry ys) := by
  simp [h.entry_eq_getElem _ h.index_lt]

theorem entry_set (row : Vector γ hoursPerDay) (other : Hour) (x : γ) :
    h.entry (row.set other.index x other.index_lt) = if other = h then x else h.entry row := by
  rw [h.entry_eq_getElem _ h.index_lt, Vector.getElem_set]
  simp only [index_injective.eq_iff, h.entry_eq_getElem _ h.index_lt]

theorem ext_entry {xs ys : Vector γ hoursPerDay} (same : ∀ h : Hour, h.entry xs = h.entry ys) :
    xs = ys := by
  ext i hi
  exact same ⟨i, hi⟩

end RoadFlow.Hour
