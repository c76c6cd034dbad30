/-!
# Incidence turned around

Some lists of numbers, given by their places, say which numbers each place holds. Turned around they
say which places hold each number. `getElem?_holders` says that this is all that turning does.
-/

namespace RoadFlow.Incidence

/-- The places of a number with one more in front, unless they begin with it already. -/
def note (place : Nat) (places : List Nat) : List Nat :=
  if places.head? = some place then places else place :: places

/-- Notes a place with each number of its list. -/
def noteAll (place : Nat) (found : Array (List Nat)) (numbers : List Nat) : Array (List Nat) :=
  numbers.foldl (fun found k => found.modify k (note place)) found

/-- For each number below `n` the places below `count` whose lists hold it, in ascending order. The
last place is noted first. -/
def holders (n count : Nat) (numbers : Nat → List Nat) : Array (List Nat) :=
  Nat.foldRev count (fun place _ found => noteAll place found (numbers place)) (.replicate n [])

theorem note_note (place : Nat) (places : List Nat) :
    note place (note place places) = note place places := by
  by_cases h : places.head? = some place <;> simp [note, h]

theorem getElem?_noteAll (place k : Nat) (numbers : List Nat) (found : Array (List Nat)) :
    (noteAll place found numbers)[k]? =
      if k ∈ numbers then found[k]?.map (note place) else found[k]? := by
  induction numbers generalizing found with
  | nil => simp [noteAll]
  | cons x xs ih =>
    have step : noteAll place found (x :: xs) = noteAll place (found.modify x (note place)) xs := rfl
    rw [step, ih, Array.getElem?_modify]
    by_cases hx : x = k
    · subst hx
      by_cases hm : x ∈ xs <;> cases found[x]? <;> simp [hm, note_note]
    · simp [hx, Ne.symm hx]

/-- Noting from some place down puts the holders below it in front of places at or above it. -/
theorem getElem?_foldRev (numbers : Nat → List Nat) (k count : Nat) (found : Array (List Nat))
    (above : ∀ places, found[k]? = some places → ∀ p, places.head? = some p → count ≤ p) :
    (Nat.foldRev count (fun place _ found => noteAll place found (numbers place)) found)[k]? =
      found[k]?.map (((List.range count).filter fun p => (numbers p).contains k) ++ ·) := by
  induction count generalizing found with
  | zero => simp
  | succ count ih =>
    rw [Nat.foldRev_succ, ih]
    · rw [getElem?_noteAll, List.range_succ, List.filter_append]
      cases hf : found[k]? with
      | none => simp
      | some places =>
        have new : places.head? ≠ some count := fun h => by
          have := above places hf count h
          omega
        by_cases hk : k ∈ numbers count <;> simp [hk, note, new]
    · intro places hp p hh
      rw [getElem?_noteAll] at hp
      cases hf : found[k]? with
      | none => simp [hf] at hp
      | some old =>
        have := above old hf
        by_cases hk : k ∈ numbers count <;> simp [hk, hf, note] at hp <;> grind

theorem getElem?_holders {n k : Nat} (count : Nat) (numbers : Nat → List Nat) (hk : k < n) :
    (holders n count numbers)[k]? =
      some ((List.range count).filter fun p => (numbers p).contains k) := by
  rw [holders, getElem?_foldRev] <;> simp [hk]

theorem getElem?_holders_eq_none {n k : Nat} (count : Nat) (numbers : Nat → List Nat) (hk : n ≤ k) :
    (holders n count numbers)[k]? = none := by
  have : ¬ k < n := by omega
  rw [holders, getElem?_foldRev] <;> simp [this]

end RoadFlow.Incidence
