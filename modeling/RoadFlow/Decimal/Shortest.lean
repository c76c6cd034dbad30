import RoadFlow.Decimal.Format

/-!
# Shortest decimals

The fewest digits that read back as a given floating-point number, and among those the decimal
nearest to it.
-/

namespace RoadFlow.Decimal

/-- The number `digits * 10 ^ power`. -/
structure Numeral where
  digits : Nat
  power : Int
  deriving DecidableEq

/-- Which of two equally near decimals is printed. -/
inductive Tie where
  | up
  | toEven
  deriving DecidableEq

/-- An exact positive number `value / unit` between the ends `low / unit` and `high / unit` of the
numbers that round to it; the ends belong to them when `closed` holds. -/
structure Interval where
  low : Nat
  value : Nat
  high : Nat
  unit : Nat
  closed : Bool
  deriving DecidableEq

/-- The numbers that round to `mantissa * 2 ^ power`. The gap below a power of two is half as wide,
except at the bottom of the range. -/
def Format.interval (f : Format) (mantissa : Nat) (power : Int) : Interval :=
  let below := if mantissa = twoTo f.fraction ∧ f.lowest < power then 1 else 2
  let quarter := power - 2
  let scale := twoTo quarter.toNat
  { low := (4 * mantissa - below) * scale
    value := 4 * mantissa * scale
    high := (4 * mantissa + 2) * scale
    unit := twoTo (-quarter).toNat
    closed := mantissa % 2 = 0 }

/-- A ruler laid along an interval, with a mark at every multiple of `10 ^ power`. The mark of some
digits lies beside `x / unit` as `digits * across` lies beside `x * along`. -/
structure Ruler where
  power : Int
  across : Nat
  along : Nat
  deriving DecidableEq

/-- The ruler with ten times as many marks. -/
def Ruler.finer (r : Ruler) : Ruler := ⟨r.power - 1, r.across, 10 * r.along⟩

namespace Interval

/-- The ruler that marks the multiples of `10 ^ power`. -/
def ruler (i : Interval) (power : Int) : Ruler :=
  ⟨power, i.unit * tenTo power.toNat, tenTo (-power).toNat⟩

/-- Whether the mark of some digits rounds to the number. -/
def holds (i : Interval) (r : Ruler) (digits : Nat) : Bool :=
  let mark := digits * r.across
  if i.closed then i.low * r.along ≤ mark && mark ≤ i.high * r.along
  else i.low * r.along < mark && mark < i.high * r.along

/-- The better of the two marks beside the number, if one of them rounds to it. -/
def onRuler? (i : Interval) (tie : Tie) (r : Ruler) : Option Nat :=
  let place := i.value * r.along
  let floor := place / r.across
  let rest := 2 * (place % r.across)
  match i.holds r floor, i.holds r (floor + 1) with
  | false, false => none
  | true, false => some floor
  | false, true => some (floor + 1)
  | true, true =>
    if rest < r.across then some floor
    else if r.across < rest then some (floor + 1)
    else match tie with
      | .up => some (floor + 1)
      | .toEven => some (floor + floor % 2)

/-- The largest `e` with `10 ^ e ≤ value / unit`. -/
def floorLog10 (i : Interval) : Int :=
  let guess : Int := (Nat.toDigits 10 i.value).length - (Nat.toDigits 10 i.unit).length
  let r := i.ruler guess
  if r.across ≤ i.value * r.along then guess else guess - 1

/-- The best mark of the first ruler that has one in the interval, among so many of them, each finer
than the one before. -/
def search (i : Interval) (tie : Tie) : Nat → Ruler → Numeral
  | 0, _ => ⟨i.value / i.unit, 0⟩
  | rulers + 1, r =>
    match i.onRuler? tie r with
    | some digits => if digits % 10 = 0 then ⟨digits / 10, r.power + 1⟩ else ⟨digits, r.power⟩
    | none => i.search tie rulers r.finer

end Interval

/-- The shortest decimal that reads back as `mantissa * 2 ^ power`. Seventeen digits always do. -/
def Format.shortest (f : Format) (tie : Tie) (mantissa : Nat) (power : Int) : Numeral :=
  let i := f.interval mantissa power
  i.search tie 17 (i.ruler i.floorLog10)

end RoadFlow.Decimal
