import RoadFlow.Network.Basic

/-!
# Network fingerprints

A 64-bit digest of a network's structure: the number of nodes and edges, and each edge's ends and
the bits of its length, in order. Names and positions do not enter it.
-/

namespace RoadFlow

namespace Fingerprint

/-- The odd factor of the digest. -/
def factor : UInt64 := 0xf1357aea2e62a9c5

/-- The digest after one more word. -/
def absorb (state word : UInt64) : UInt64 := (state + word) * factor

def digest (words : List UInt64) : UInt64 := words.foldl absorb 0

def rotate (state : UInt64) : UInt64 := state <<< 26 ||| state >>> 38

end Fingerprint

namespace Network

def edgeWords (e : Edge) : List UInt64 :=
  [e.source.index.toUInt64, e.target.index.toUInt64, e.length.toBits]

/-- The words of a network's structure, in the order in which they are absorbed. -/
def structureWords (net : Network) : List UInt64 :=
  net.nodeCount.toUInt64 :: net.edgeCount.toUInt64 :: net.edges.toList.flatMap edgeWords

def fingerprint (net : Network) : UInt64 :=
  Fingerprint.rotate (Fingerprint.digest net.structureWords)

end Network

end RoadFlow
