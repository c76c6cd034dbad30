import RoadFlow.Decimal.Format

/-!
# Reading numbers

Whole numbers without a sign, and floating-point numbers with the names of infinity and of the
missing number. Both read the whole text or refuse it.
-/

namespace RoadFlow.Decimal

/-- Why a text is no whole number. -/
inductive NaturalFault where
  | empty
  | digit
  | tooLarge
  deriving DecidableEq

def NaturalFault.message : NaturalFault → String
  | .empty => "cannot parse integer from empty string"
  | .digit => "invalid digit found in string"
  | .tooLarge => "number too large to fit in target type"

/-- Why a text is no floating-point number. -/
inductive RealFault where
  | empty
  | literal
  deriving DecidableEq

def RealFault.message : RealFault → String
  | .empty => "cannot parse float from empty string"
  | .literal => "invalid float literal"

/-- The value of a digit in bases up to sixteen. -/
def digitValue? (base : Nat) (c : Char) : Option Nat :=
  let value? :=
    if '0' ≤ c ∧ c ≤ '9' then some (c.toNat - '0'.toNat)
    else if 'a' ≤ c ∧ c ≤ 'f' then some (c.toNat - 'a'.toNat + 10)
    else if 'A' ≤ c ∧ c ≤ 'F' then some (c.toNat - 'A'.toNat + 10)
    else none
  value?.filter (· < base)

/-- Digits read from the left onto `acc`; the first fault met wins. -/
def readDigits (base limit : Nat) : Nat → List Char → Except NaturalFault Nat
  | acc, [] => .ok acc
  | acc, c :: rest =>
    match digitValue? base c with
    | none => .error .digit
    | some d =>
      if limit ≤ base * acc + d then .error .tooLarge
      else readDigits base limit (base * acc + d) rest

/-- A whole number below `limit`, with an optional plus sign. -/
def readNatural (base limit : Nat) (text : List Char) : Except NaturalFault Nat :=
  match text with
  | [] => .error .empty
  | ['+'] => .error .digit
  | '+' :: digits => readDigits base limit 0 digits
  | digits => readDigits base limit 0 digits

/-- The value of a list of decimal digits. -/
def digitsValue (digits : List Char) : Nat :=
  digits.foldl (fun acc c => 10 * acc + (c.toNat - '0'.toNat)) 0

/-- The leading decimal digits of a text, and what follows them. -/
def spanDigits (text : List Char) : List Char × List Char :=
  (text.takeWhile Char.isDigit, text.dropWhile Char.isDigit)

/-- An unsigned number with optional places and exponent: its digits, and the power of ten of the
last one. -/
def unsignedNumber? (text : List Char) : Option (Nat × Int) :=
  let (whole, rest) := spanDigits text
  let (places, rest) := match rest with
    | '.' :: rest => spanDigits rest
    | rest => ([], rest)
  let digits := digitsValue (whole ++ places)
  let power := -(places.length : Int)
  if whole.isEmpty && places.isEmpty then none
  else match rest with
    | [] => some (digits, power)
    | e :: rest =>
      if e = 'e' ∨ e = 'E' then
        let (negative, rest) := match rest with
          | '-' :: rest => (true, rest)
          | '+' :: rest => (false, rest)
          | rest => (false, rest)
        let (exponent, rest) := spanDigits rest
        if exponent.isEmpty || !rest.isEmpty then none
        else
          let size : Int := digitsValue exponent
          some (digits, power + if negative then -size else size)
      else none

namespace Format

def nanBits (f : Format) : Nat := f.infinity + twoTo (f.fraction - 1)

/-- The bits of the number that `text` writes. -/
def read (f : Format) (text : List Char) : Except RealFault Nat :=
  let (negative, body) := match text with
    | '-' :: body => (true, body)
    | '+' :: body => (false, body)
    | body => (false, body)
  let sign := if negative then f.signBit else 0
  let word := body.map Char.toLower
  if text.isEmpty then .error .empty
  else if word = "nan".toList then .ok f.nanBits
  else if word = "inf".toList ∨ word = "infinity".toList then .ok (sign + f.infinity)
  else match unsignedNumber? body with
    | some (digits, power) => .ok (sign + f.ofDecimal digits power)
    | none => .error .literal

end Format

end RoadFlow.Decimal
