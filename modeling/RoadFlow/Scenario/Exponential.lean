import RoadFlow.Decimal.Format

/-!
# The exponential function

`exp` of a 32-bit number, computed in fixed point with many more places than the result has and
rounded once at the end.
-/

namespace RoadFlow.Exponential

/-- Places after the binary point. -/
def places : Nat := 192

def one : Int := twoTo places

def multiply (x y : Int) : Int := x * y / one

/-- The sum of `x ^ k / k!` for the next `n` terms, the last one being `term`. -/
def series (x term : Int) (k : Nat) : Nat → Int
  | 0 => 0
  | n + 1 => term + series x (multiply x term / (k + 1)) (k + 1) n

def squared : Nat → Int → Int
  | 0, x => x
  | n + 1, x => squared n (multiply x x)

/-- `exp` of a number in fixed point. The argument is halved ten times, which leaves forty terms
more than enough, and the result squared ten times. -/
def fixedPoint (x : Int) : Int := squared 10 (series (x / twoTo 10) one 0 40)

/-- `exp x`, rounded to the nearest 32-bit number. Arguments outside the range between the smallest
and the largest result are settled without a sum. -/
def single (x : Float32) : Float32 :=
  let bits := x.toBits.toNat
  let f := Decimal.Format.single
  match f.exact bits with
  | .nan => x
  | .infinite negative => if negative then 0 else x
  | .finite negative mantissa power =>
    if x < -104 then 0
    else if 89 < x then Float32.ofBits f.infinity.toUInt32
    else
      let magnitude : Int := mantissa * twoTo (places + power).toNat
      let value := fixedPoint (if negative then -magnitude else magnitude)
      Float32.ofBits (f.nearest value.toNat (twoTo places)).toUInt32

end RoadFlow.Exponential
