import RoadFlow.Power

/-!
# Reproducible random streams

A stream of 64-bit words from four words of state (xoshiro256++), filled from a seed by a 32-bit
permuted congruential generator. Equal seeds give equal streams.
-/

namespace RoadFlow.Random

structure Stream where
  a : UInt64
  b : UInt64
  c : UInt64
  d : UInt64
  deriving DecidableEq

def rotateLeft (x : UInt64) (n : UInt64) : UInt64 := x <<< n ||| x >>> (64 - n)

/-- The odd number nearest to 2^64 divided by the golden ratio. -/
def goldenGamma : UInt64 := 0x9e3779b97f4a7c15

/-- The congruential step that fills a stream's state. -/
def advance (state : UInt64) : UInt64 := state * 6364136223846793005 + 11634580027462260723

/-- The 32 bits that a congruential state puts out: shifted onto itself, then rotated by its top
five bits. -/
def permuted (state : UInt64) : UInt32 :=
  let folded := ((state >>> 18 ^^^ state) >>> 27).toUInt32
  let turn := (state >>> 59).toUInt32
  folded >>> turn ||| folded <<< ((32 - turn) % 32)

/-- A word of state from two outputs, the low half first, and the congruential state after them. -/
def fill (state : UInt64) : UInt64 × UInt64 :=
  let first := advance state
  let second := advance first
  ((permuted second).toUInt64 <<< 32 ||| (permuted first).toUInt64, second)

namespace Stream

def ofSeed (seed : UInt64) : Stream :=
  let (a, state) := fill seed
  let (b, state) := fill state
  let (c, state) := fill state
  let (d, _) := fill state
  ⟨a, b, c, d⟩

/-- The next 64-bit word. -/
def next (s : Stream) : UInt64 × Stream :=
  let word := rotateLeft (s.a + s.d) 23 + s.a
  let c := s.c ^^^ s.a
  let d := s.d ^^^ s.b
  (word, { a := s.a ^^^ d, b := s.b ^^^ c, c := c ^^^ s.b <<< 17, d := rotateLeft d 45 })

/-- The high half of the next word. -/
def next32 (s : Stream) : Nat × Stream :=
  let (word, s) := s.next
  ((word >>> 32).toNat, s)

def next64 (s : Stream) : Nat × Stream :=
  let (word, s) := s.next
  (word.toNat, s)

/-- The top 24 bits of the next word: `n` stands for `n / 2 ^ 24`. -/
def next24 (s : Stream) : Nat × Stream :=
  let (n, s) := s.next32
  (n / twoTo 8, s)

/-- An independent stream, set off from its siblings by `offset`, and the rest of this one. -/
def child (s : Stream) (offset : UInt64) : Stream × Stream :=
  let (word, rest) := s.next
  (ofSeed (word ^^^ offset * goldenGamma), rest)

end Stream

end RoadFlow.Random
