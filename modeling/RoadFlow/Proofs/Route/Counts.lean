import RoadFlow.Proofs.Route.BreadthFirst
import RoadFlow.Proofs.Route.Rounding

/-!
# Counts in 64 bits

One is a length, so rounded counts keep their order as rounded sums do. Adding it no longer changes a
count that has come to `2 ^ 53`, so that no count of edges is infinite (`additive_counts`).
-/

namespace RoadFlow

open PathCost

namespace Counts

open Lengths

/-- Where counting stands still: `2 ^ 53`. -/
def highest : Float := Float.ofBits 0x4340000000000000

theorem isCost_highest : IsCost highest := by
  unfold IsCost
  decide

theorem highest_add_one : highest + 1 = highest := by decide

theorem isLength_one : Builder.isLength 1 = true := by decide

theorem isCost_hopCount (k : Nat) : IsCost (hopCount k) := by
  induction k with
  | zero => exact isCost_zero
  | succ k ih => exact isCost_add ih isLength_one

theorem bitsOf_hopCount_le (k : Nat) : bitsOf (hopCount k) ≤ bitsOf highest := by
  induction k with
  | zero => decide
  | succ k ih =>
    calc bitsOf (hopCount (k + 1)) ≤ bitsOf (highest + 1) :=
          bitsOf_add_mono (isCost_hopCount k) isCost_highest isLength_one ih
      _ = bitsOf highest := by rw [highest_add_one]

theorem bitsOf_hopCount_lt (k : Nat) : bitsOf (hopCount k) < infinityBits :=
  Nat.lt_of_le_of_lt (bitsOf_hopCount_le k) (by decide)

end Counts

open Counts Lengths

/-- Rounded counts of edges obey all laws of costs. -/
theorem additive_counts (net : Network) (source : NodeId) :
    CostOrder.Additive net (fun _ => (1 : Float)) source := by
  have growing : CostOrder.Growing net (fun _ => (1 : Float)) source :=
    growing_of_isLength fun _ => isLength_one
  refine { growing with finite := ?_ }
  rintro v a ⟨edges, -, rfl⟩
  rw [walkCost_one, PathCost.isFinite, lt_iff_bits (isCost_hopCount _) isCost_unreached,
    bitsOf_unreached]
  exact bitsOf_hopCount_lt _

end RoadFlow
