import RoadFlow.Power

/-!
# Binary floating-point formats

A format's bit patterns read as exact numbers, and the nearest bit pattern to an exact number.
-/

namespace RoadFlow.Decimal

/-- `num / den` to the nearest whole number, a half going to the even neighbour. -/
def roundHalfEven (num den : Nat) : Nat :=
  let whole := num / den
  let rest := 2 * (num % den)
  if rest < den then whole
  else if den < rest then whole + 1
  else whole + whole % 2

/-- A binary format with `fraction` stored significand bits and `exponent` exponent bits. -/
structure Format where
  fraction : Nat
  exponent : Nat
  deriving DecidableEq

namespace Format

def single : Format := ⟨23, 8⟩

def double : Format := ⟨52, 11⟩

/-- The exponent of the last place of the smallest numbers. -/
def lowest (f : Format) : Int := 2 - twoTo (f.exponent - 1) - f.fraction

/-- The bits of positive infinity. -/
def infinity (f : Format) : Nat := (twoTo f.exponent - 1) * twoTo f.fraction

/-- The weight of the sign bit. -/
def signBit (f : Format) : Nat := twoTo (f.fraction + f.exponent)

/-- What a bit pattern stands for; a finite one is `mantissa * 2 ^ power`. -/
inductive Exact where
  | nan
  | infinite (negative : Bool)
  | finite (negative : Bool) (mantissa : Nat) (power : Int)
  deriving DecidableEq

/-- The whole number nearest to a positive number, a half going up. Other numbers give zero. -/
def Exact.roundHalfUp : Exact → Nat
  | .finite false mantissa power =>
    let den := twoTo (-power).toNat
    (2 * (mantissa * twoTo power.toNat) + den) / (2 * den)
  | _ => 0

/-- The number a bit pattern stands for. -/
def exact (f : Format) (bits : Nat) : Exact :=
  let negative := f.signBit ≤ bits
  let magnitude := bits % f.signBit
  let stored := magnitude % twoTo f.fraction
  let field := magnitude / twoTo f.fraction
  if field = twoTo f.exponent - 1 then
    if stored = 0 then .infinite negative else .nan
  else if field = 0 then .finite negative stored f.lowest
  else .finite negative (stored + twoTo f.fraction) (f.lowest + (field - 1 : Nat))

/-- The largest `e` with `2 ^ e ≤ num / den`, for a positive quotient. -/
def floorLog2 (num den : Nat) : Int :=
  let guess : Int := num.log2 - den.log2
  let reaches :=
    if 0 ≤ guess then den * twoTo guess.toNat ≤ num else den ≤ num * twoTo (-guess).toNat
  if reaches then guess else guess - 1

/-- The bits of the number of the format nearest to `num / den`, a tie going to the even
significand and a quotient beyond the largest number to infinity. -/
def nearest (f : Format) (num den : Nat) : Nat :=
  if num = 0 then 0
  else
    let power := max (floorLog2 num den - f.fraction) f.lowest
    let significand :=
      if 0 ≤ power then roundHalfEven num (den * twoTo power.toNat)
      else roundHalfEven (num * twoTo (-power).toNat) den
    min (significand + (power - f.lowest).toNat * twoTo f.fraction) f.infinity

/-- The nearest bits to `digits * 10 ^ power`. Exponents far outside the format's range are
settled without computing the power of ten. -/
def ofDecimal (f : Format) (digits : Nat) (power : Int) : Nat :=
  let places : Int := (Nat.toDigits 10 digits).length
  if digits = 0 then 0
  else if 400 < places + power then f.infinity
  else if places + power < -400 then 0
  else if 0 ≤ power then f.nearest (digits * tenTo power.toNat) 1
  else f.nearest digits (tenTo (-power).toNat)

end Format

end RoadFlow.Decimal
