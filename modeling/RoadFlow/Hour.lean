import RoadFlow.Decimal.Layout

/-!
# Hours of the day

Counts and flows are binned into the 24 hours of a day. Arithmetic on hours stays on the clock.
-/

namespace RoadFlow

def hoursPerDay : Nat := 24

structure Hour where
  index : Nat
  index_lt : index < hoursPerDay := by decide
  deriving DecidableEq

/-- An hour that the day does not have. -/
structure HourFault where
  hour : Nat
  deriving DecidableEq

def HourFault.message (f : HourFault) : String :=
  s!"parse error: hour {f.hour} outside 0..{hoursPerDay}"

namespace Hour

def ofNat (n : Nat) : Except HourFault Hour :=
  if h : n < hoursPerDay then .ok ⟨n, h⟩ else .error ⟨n⟩

/-- The hour `n` hours later, past midnight if need be. -/
def add (h : Hour) (n : Nat) : Hour :=
  ⟨(h.index + n) % hoursPerDay, Nat.mod_lt _ (by decide)⟩

/-- The hours of a day in order. -/
def all : List Hour := (List.finRange hoursPerDay).map fun i => ⟨i.val, i.isLt⟩

/-- The clock time at `minute` past the hour; minutes beyond the hour count as its last. -/
def clockTime (h : Hour) (minute : Nat) : String :=
  Decimal.zeroPadded 2 h.index ++ ":" ++ Decimal.zeroPadded 2 (min minute 59) ++ ":00"

def label (h : Hour) : String := "H" ++ Decimal.zeroPadded 2 h.index

end Hour

end RoadFlow
