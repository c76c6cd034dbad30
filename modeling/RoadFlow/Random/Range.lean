import RoadFlow.Random.Stream

/-!
# Uniform draws

Whole numbers below a bound are drawn by widening multiplication: a word `v` of `bits` bits gives
`v * range / 2 ^ bits`, and a word whose product leaves a low part above `zone` is drawn again.
-/

namespace RoadFlow.Random

/-- How words are turned into numbers below `range`. -/
structure Draw where
  bits : Nat
  range : Nat
  zone : Nat

/-- Draws by the largest acceptable zone, from 32-bit words; used for small ranges. -/
def Draw.exact (range : Nat) : Draw :=
  ⟨32, range, twoTo 32 - 1 - (twoTo 32 - range) % range⟩

/-- Draws by the zone that a shift gives. -/
def Draw.shifted (bits range : Nat) : Draw :=
  ⟨bits, range, range * twoTo (bits - 1 - range.log2) - 1⟩

namespace Stream

def word (s : Stream) (bits : Nat) : Nat × Stream :=
  if bits ≤ 32 then s.next32 else s.next64

/-- Words refused in a row before the next one is taken as it is. Each is refused with a chance of
less than one half. -/
def patience : Nat := 4096

/-- A number below `d.range`. -/
def draw (d : Draw) : Nat → Stream → Nat × Stream
  | 0, s => let (v, s) := s.word d.bits; (v * d.range / twoTo d.bits, s)
  | fuel + 1, s =>
    let (v, s) := s.word d.bits
    if v * d.range % twoTo d.bits ≤ d.zone then (v * d.range / twoTo d.bits, s)
    else draw d fuel s

/-- A byte in `low ≤ n < high`. -/
def byteIn (s : Stream) (low high : Nat) : Nat × Stream :=
  let (n, s) := draw (.exact (high - low)) patience s
  (low + n, s)

/-- A 32-bit number in `low ≤ n < high`. -/
def word32In (s : Stream) (low high : Nat) : Nat × Stream :=
  let (n, s) := draw (.shifted 32 (high - low)) patience s
  (low + n, s)

/-- A 64-bit number in `low ≤ n < high`. -/
def word64In (s : Stream) (low high : Nat) : Nat × Stream :=
  let (n, s) := draw (.shifted 64 (high - low)) patience s
  (low + n, s)

/-- A 32-bit number in `low ≤ n ≤ high`; the full range takes any word. -/
def word32UpTo (s : Stream) (low high : Nat) : Nat × Stream :=
  if high - low + 1 = twoTo 32 then s.next32 else s.word32In low (high + 1)

/-- A number in `low ≤ x < high`: 52 random bits scaled to the interval, drawn again when rounding
reaches its end. -/
def realFrom (low high : Float) : Nat → Stream → Float × Stream
  | 0, s => (low, s)
  | fuel + 1, s =>
    let (v, s) := s.next64
    let unit := Float.ofBits (UInt64.ofNat (1023 * twoTo 52 + v / twoTo 12)) - 1
    let x := unit * (high - low) + low
    if x < high then (x, s) else realFrom low high fuel s

def realIn (s : Stream) (low high : Float) : Float × Stream := realFrom low high patience s

/-- A random element; nothing is drawn when there is none. -/
def choose {α : Type} (s : Stream) (xs : Array α) : Option α × Stream :=
  if xs.isEmpty then (none, s)
  else
    let (i, s) := s.word32In 0 xs.size
    (xs[i]?, s)

end Stream

end RoadFlow.Random
