import RoadFlow.Matrix.Fault

/-!
# Binary fields

Whole numbers with the low byte first, and texts and lists of numbers behind their lengths. Readers
take a field off the front of some bytes.
-/

namespace RoadFlow.Cache

abbrev Bytes := List UInt8

/-- The low `size` bytes of a number. -/
def putNatural : Nat → Nat → Bytes
  | 0, _ => []
  | size + 1, n => (n % 256).toUInt8 :: putNatural size (n / 256)

def naturalOf (bytes : Bytes) : Nat := bytes.foldr (fun b n => b.toNat + 256 * n) 0

def takeBytes (size : Nat) (input : Bytes) : Except EncodingFault (Bytes × Bytes) :=
  if size ≤ input.length then .ok (input.take size, input.drop size) else .error .ended

def takeNatural (size : Nat) (input : Bytes) : Except EncodingFault (Nat × Bytes) :=
  (takeBytes size input).map fun (field, rest) => (naturalOf field, rest)

def putText (text : String) : Bytes :=
  let bytes := Text.Utf8.encode text
  putNatural 8 bytes.length ++ bytes

def takeText (input : Bytes) : Except EncodingFault (String × Bytes) := do
  let (length, rest) ← takeNatural 8 input
  if rest.length < length then .error .textTooLong
  else match Text.Utf8.decode (rest.take length) with
    | .ok text => .ok (text, rest.drop length)
    | .error fault => .error (.text fault)

/-- A list of 32-bit numbers. -/
def putWords (words : List Nat) : Bytes :=
  putNatural 8 words.length ++ words.flatMap (putNatural 4)

/-- The numbers in a row of four-byte fields. -/
def wordsOf : Nat → Bytes → List Nat
  | 0, _ => []
  | count + 1, input => naturalOf (input.take 4) :: wordsOf count (input.drop 4)

def takeWords (input : Bytes) : Except EncodingFault (List Nat × Bytes) := do
  let (count, rest) ← takeNatural 8 input
  if rest.length < 4 * count then .error .ended
  else .ok (wordsOf count rest, rest.drop (4 * count))

end RoadFlow.Cache
