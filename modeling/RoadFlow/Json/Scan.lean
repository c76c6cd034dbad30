import RoadFlow.Decimal.Format
import RoadFlow.Text.Utf8

/-!
# The tokens of a JSON document

Each reader takes a token off the front of some bytes and returns it with the bytes after it.
-/

namespace RoadFlow.Json

/-- Why a document cannot be used: it is no JSON, it ends too early, or it is JSON of another
form than asked for. -/
inductive Fault where
  | malformed
  | ended
  | mismatch
  deriving DecidableEq

abbrev Bytes := List UInt8

def byte (c : Char) : UInt8 := c.toNat.toUInt8

def isBlank (b : UInt8) : Bool := b == 0x20 || b == 0x0a || b == 0x09 || b == 0x0d

def skipBlanks (input : Bytes) : Bytes := input.dropWhile isBlank

def isDigit (b : UInt8) : Bool := 0x30 ≤ b && b ≤ 0x39

/-- The value of decimal digits. -/
def digitsValue (digits : Bytes) : Nat :=
  digits.foldl (fun acc b => 10 * acc + (b.toNat - 0x30)) 0

/-- The given letters, which must come next. -/
def takeWord : List Char → Bytes → Except Fault Bytes
  | [], input => .ok input
  | _ :: _, [] => .error .ended
  | c :: word, b :: input => if b = byte c then takeWord word input else .error .malformed

/-! ## Numbers -/

inductive Number where
  | natural (n : Nat)
  | negative (n : Nat)
  | real (x : Float)
  deriving DecidableEq

def powerOfTen (n : Nat) : Float := Float.ofBits (Decimal.Format.double.ofDecimal 1 n).toUInt64

/-- `f * 10 ^ exponent` in steps that stay within the range of the powers of ten; none beyond the
largest number. -/
def scale? : Nat → Float → Int → Option Float
  | 0, f, _ => some f
  | fuel + 1, f, exponent =>
    if exponent.natAbs ≤ 308 then
      if 0 ≤ exponent then
        let scaled := f * powerOfTen exponent.natAbs
        if scaled.isInf then none else some scaled
      else some (f / powerOfTen exponent.natAbs)
    else if f == 0 then some f
    else if 0 ≤ exponent then none
    else scale? fuel (f / powerOfTen 308) (exponent + 308)

/-- The number `significand * 10 ^ exponent` with a sign. Three steps bring any significand to
zero. -/
def realOfParts (positive : Bool) (significand : Nat) (exponent : Int) : Except Fault Number :=
  match scale? 8 significand.toUInt64.toFloat exponent with
  | some f => .ok (.real (if positive then f else -f))
  | none => .error .malformed

/-- The longest run of leading digits whose value fits 64 bits, joined to `acc`, and the number of
digits that did not fit. -/
def takeSignificand (acc : Nat) : Bytes → Nat × Nat
  | [] => (acc, 0)
  | b :: digits =>
    let next := 10 * acc + (b.toNat - 0x30)
    if next < twoTo 64 then takeSignificand next digits else (acc, digits.length + 1)

/-- The exponent after its mark, and the number it completes. -/
def readExponent (positive : Bool) (significand : Nat) (start : Int) (input : Bytes) :
    Except Fault (Number × Bytes) :=
  let (down, input) := match input with
    | b :: rest => if b = byte '+' then (false, rest) else if b = byte '-' then (true, rest)
      else (false, input)
    | [] => (false, input)
  let digits := input.takeWhile isDigit
  let rest := input.dropWhile isDigit
  if digits.isEmpty then .error (if rest.isEmpty then .ended else .malformed)
  else
    let size : Int := digitsValue digits
    (realOfParts positive significand (start + if down then -size else size)).map (·, rest)

/-- The places after the point, and the number they belong to. -/
def readPlaces (positive : Bool) (significand : Nat) (start : Int) (input : Bytes) :
    Except Fault (Number × Bytes) :=
  let digits := input.takeWhile isDigit
  let rest := input.dropWhile isDigit
  let (significand, dropped) := takeSignificand significand digits
  let exponent := start - (digits.length - dropped : Nat)
  if digits.isEmpty then .error (if rest.isEmpty then .ended else .malformed)
  else match rest with
    | b :: tail =>
      if b = byte 'e' ∨ b = byte 'E' then readExponent positive significand exponent tail
      else (realOfParts positive significand exponent).map (·, rest)
    | [] => (realOfParts positive significand exponent).map (·, rest)

/-- A number whose whole part is the given digits, which lie behind. -/
def finishNumber (positive : Bool) (digits rest : Bytes) : Except Fault (Number × Bytes) :=
  let (significand, dropped) := takeSignificand 0 digits
  let whole : Except Fault (Number × Bytes) :=
    if 0 < dropped then (realOfParts positive significand dropped).map (·, rest)
    else if positive then .ok (.natural significand, rest)
    else if 0 < significand ∧ significand ≤ twoTo 63 then .ok (.negative significand, rest)
    else .ok (.real (-significand.toUInt64.toFloat), rest)
  match rest with
  | b :: tail =>
    if b = byte '.' then readPlaces positive significand dropped tail
    else if b = byte 'e' ∨ b = byte 'E' then readExponent positive significand dropped tail
    else whole
  | [] => whole

/-- A number without its minus sign; a leading zero stands alone. -/
def readUnsigned (positive : Bool) (input : Bytes) : Except Fault (Number × Bytes) :=
  let digits := input.takeWhile isDigit
  let rest := input.dropWhile isDigit
  match digits with
  | [] => .error (if input.isEmpty then .ended else .malformed)
  | d :: more =>
    if d = byte '0' ∧ !more.isEmpty then .error .malformed
    else finishNumber positive digits rest

def readNumber : Bytes → Except Fault (Number × Bytes)
  | b :: rest => if b = byte '-' then readUnsigned false rest else readUnsigned true (b :: rest)
  | [] => .error .ended

/-! ## Strings -/

def hexDigit? (b : UInt8) : Option Nat :=
  if 0x30 ≤ b && b ≤ 0x39 then some (b.toNat - 0x30)
  else if 0x41 ≤ b && b ≤ 0x46 then some (b.toNat - 0x41 + 10)
  else if 0x61 ≤ b && b ≤ 0x66 then some (b.toNat - 0x61 + 10)
  else none

/-- Four hexadecimal digits. -/
def readHex (input : Bytes) : Except Fault (Nat × Bytes) :=
  match input with
  | a :: b :: c :: d :: rest =>
    match hexDigit? a, hexDigit? b, hexDigit? c, hexDigit? d with
    | some a, some b, some c, some d => .ok (((a * 16 + b) * 16 + c) * 16 + d, rest)
    | _, _, _, _ => .error .malformed
  | _ => .error .ended

/-- The code point of an escape by number, whose mark lies behind. The two halves of a pair come
one after the other. -/
def readCodePoint (input : Bytes) : Except Fault (Nat × Bytes) := do
  let (n, rest) ← readHex input
  if 0xdc00 ≤ n ∧ n ≤ 0xdfff then .error .malformed
  else if n < 0xd800 ∨ 0xdbff < n then .ok (n, rest)
  else match rest with
    | [] => .error .ended
    | a :: rest =>
      if a ≠ byte '\\' then .error .malformed
      else match rest with
        | [] => .error .ended
        | b :: rest =>
          if b ≠ byte 'u' then .error .malformed
          else
            let (m, rest) ← readHex rest
            if m < 0xdc00 ∨ 0xdfff < m then .error .malformed
            else .ok ((n - 0xd800) * 1024 + (m - 0xdc00) + 0x10000, rest)

/-- What a one-letter escape stands for. -/
def escaped? (b : UInt8) : Option UInt8 :=
  if b = byte '"' ∨ b = byte '\\' ∨ b = byte '/' then some b
  else if b = byte 'b' then some 8
  else if b = byte 'f' then some 12
  else if b = byte 'n' then some 10
  else if b = byte 'r' then some 13
  else if b = byte 't' then some 9
  else none

/-- The bytes of a string up to its closing quote, in reverse onto `acc`. -/
def readStringBytes : Nat → Bytes → Bytes → Except Fault (Bytes × Bytes)
  | 0, _, _ => .error .ended
  | _ + 1, _, [] => .error .ended
  | fuel + 1, acc, b :: rest =>
    if b = byte '"' then .ok (acc.reverse, rest)
    else if b = byte '\\' then
      match rest with
      | [] => .error .ended
      | e :: rest =>
        if e = byte 'u' then do
          let (n, rest) ← readCodePoint rest
          readStringBytes fuel ((Text.Utf8.encode (Char.ofNat n).toString).reverse ++ acc) rest
        else match escaped? e with
          | some c => readStringBytes fuel (c :: acc) rest
          | none => .error .malformed
    else if b < 0x20 then .error .malformed
    else readStringBytes fuel (b :: acc) rest

/-- A string whose opening quote lies behind. -/
def readString (input : Bytes) : Except Fault (String × Bytes) := do
  let (bytes, rest) ← readStringBytes (input.length + 1) [] input
  match Text.Utf8.decode bytes with
  | .ok text => .ok (text, rest)
  | .error _ => .error .malformed

end RoadFlow.Json
