/-!
# Numbers of a fit

The arithmetic that flows are stored and fitted in, and the wider arithmetic in which sums over many
cells are taken. A fit runs in 32 bits with sums in 64.
-/

namespace RoadFlow

class Scalar (α : Type) extends Zero α, One α, Add α, Sub α, Mul α, Div α where
  ofNat : Nat → α
  sqrt : α → α
  abs : α → α
  lt : α → α → Bool
  isFinite : α → Bool
  /-- The larger of a number and zero; a missing number counts as zero. -/
  atLeastZero : α → α

/-- Sums of `α` taken in `β`. -/
class Widens (α : Type) (β : outParam Type) [Scalar α] [Scalar β] where
  widen : α → β
  narrow : β → α

instance : Scalar Float where
  zero := 0
  one := 1
  add x y := x + y
  sub x y := x - y
  mul x y := x * y
  div x y := x / y
  ofNat := Float.ofNat
  sqrt := Float.sqrt
  abs := Float.abs
  lt x y := x < y
  isFinite := Float.isFinite
  atLeastZero x := if 0 < x then x else 0

instance : Scalar Float32 where
  zero := 0
  one := 1
  add x y := x + y
  sub x y := x - y
  mul x y := x * y
  div x y := x / y
  ofNat := Float32.ofNat
  sqrt := Float32.sqrt
  abs := Float32.abs
  lt x y := x < y
  isFinite := Float32.isFinite
  atLeastZero x := if 0 < x then x else 0

/-! ## Two widths -/

open Float.Model in
/-- The number of a format nearest to one of another, a tie going to the even mantissa. -/
def rounded (spec : Format) : UnpackedFloat → UnpackedFloat
  | .finite sign mantissa power _ => .round spec sign mantissa power
  | x => x

def narrowed (x : Float) : Float32 := .ofModel (.pack (rounded .binary32 x.toModel.unpack))

/-- Zeros and numbers with all their places keep their bits, so only others are taken apart. -/
def widened (x : Float32) : Float :=
  let sign := x.toBits.toUInt64 / 0x80000000 * 0x8000000000000000
  let magnitude := x.toBits.toUInt64 % 0x80000000
  if magnitude = 0 then .ofBits sign
  else if 0x800000 ≤ magnitude ∧ magnitude < 0x7f800000 then
    .ofBits (sign + magnitude * 0x20000000 + 0x3800000000000000)
  else .ofModel (.pack (rounded .binary64 x.toModel.unpack))

instance : Widens Float32 Float where
  widen := widened
  narrow := narrowed

end RoadFlow
