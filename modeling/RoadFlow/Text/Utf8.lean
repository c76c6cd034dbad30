import RoadFlow.Power

/-!
# UTF-8

Bytes read as text, with the place and the extent of the first bytes that are no text.
-/

namespace RoadFlow.Text.Utf8

/-- The first `valid` bytes are text; the `length` bytes after them are not, or the bytes end
inside a character. -/
inductive Fault where
  | invalid (valid length : Nat)
  | incomplete (valid : Nat)
  deriving DecidableEq

def Fault.valid : Fault → Nat
  | .invalid valid _ => valid
  | .incomplete valid => valid

def Fault.message : Fault → String
  | .invalid valid length => s!"invalid utf-8 sequence of {length} bytes from index {valid}"
  | .incomplete valid => s!"incomplete utf-8 byte sequence from index {valid}"

/-- The range of a character's second byte and the number of bytes after the first, by the first
byte; none for a byte that starts no character of several bytes. -/
def shape? (first : UInt8) : Option (UInt8 × UInt8 × Nat) :=
  if 0xc2 ≤ first && first ≤ 0xdf then some (0x80, 0xbf, 1)
  else if first = 0xe0 then some (0xa0, 0xbf, 2)
  else if 0xe1 ≤ first && first ≤ 0xec then some (0x80, 0xbf, 2)
  else if first = 0xed then some (0x80, 0x9f, 2)
  else if 0xee ≤ first && first ≤ 0xef then some (0x80, 0xbf, 2)
  else if first = 0xf0 then some (0x90, 0xbf, 3)
  else if 0xf1 ≤ first && first ≤ 0xf3 then some (0x80, 0xbf, 3)
  else if first = 0xf4 then some (0x80, 0x8f, 3)
  else none

/-- The payload of a first byte that `count` bytes follow. -/
def payload (first : UInt8) (count : Nat) : Nat :=
  first.toNat % twoTo (6 - count)

/-- What is still owed of a character: the range of its next byte, the bytes left with that one,
those read, and the payload so far. -/
structure Pending where
  low : UInt8
  high : UInt8
  left : Nat
  read : Nat
  code : Nat

/-- Reads on from a character that is under way or not, `valid` bytes of text lying behind it. -/
def decodeFrom (valid : Nat) : Option Pending → List UInt8 → Except Fault (List Char)
  | none, [] => .ok []
  | some _, [] => .error (.incomplete valid)
  | none, b :: rest =>
    if b < 0x80 then (decodeFrom (valid + 1) none rest).map (Char.ofNat b.toNat :: ·)
    else match shape? b with
      | some (low, high, count) =>
        decodeFrom valid (some ⟨low, high, count, 1, payload b count⟩) rest
      | none => .error (.invalid valid 1)
  | some p, b :: rest =>
    if p.low ≤ b && b ≤ p.high then
      let code := p.code * 64 + b.toNat % 64
      if p.left ≤ 1 then
        (decodeFrom (valid + p.read + 1) none rest).map (Char.ofNat code :: ·)
      else decodeFrom valid (some ⟨0x80, 0xbf, p.left - 1, p.read + 1, code⟩) rest
    else .error (.invalid valid p.read)

/-- The text that the bytes encode. -/
def decode (bytes : List UInt8) : Except Fault String :=
  (decodeFrom 0 none bytes).map String.ofList

/-- The bytes of a text. -/
def encode (text : String) : List UInt8 := text.toUTF8.data.toList

end RoadFlow.Text.Utf8
