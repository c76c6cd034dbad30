import RoadFlow.Cache.Bytes
import RoadFlow.Matrix.Assignment
import RoadFlow.Network.Fingerprint
import RoadFlow.Route.Policy

/-!
# Archives of assignment matrices

A stored matrix stands behind a header that says what it was assembled for. Reading gives the matrix
back only to a key that agrees with the header in every respect.
-/

namespace RoadFlow.Cache

/-- What a stored matrix has to agree with. -/
structure Key where
  network : String
  fingerprint : UInt64
  edgeCount : Nat
  clusterCount : Nat
  policy : Policy
  deriving DecidableEq

def Key.ofNetwork (net : Network) (clusters : Nat) (policy : Policy) : Key :=
  ⟨net.name, net.fingerprint, net.edgeCount, clusters, policy⟩

/-- The content of a file: the header, where each column starts, and the marked edges column by
column. -/
structure Archive where
  magic : Bytes
  version : Nat
  network : String
  fingerprint : Nat
  edgeCount : Nat
  clusterCount : Nat
  policy : Nat
  colStart : List Nat
  rows : List Nat
  deriving DecidableEq

namespace Archive

def magicBytes : Bytes := Text.Utf8.encode "TAMCACHE"

def currentVersion : Nat := 1

/-- Where each column of a matrix starts among its entries, and where the last one ends. -/
def startsOf : Nat → List (List EdgeId) → List Nat
  | start, [] => [start]
  | start, column :: rest => start :: startsOf (start + column.length) rest

def ofMatrix (key : Key) (m : AssignmentMatrix) : Archive :=
  { magic := magicBytes
    version := currentVersion
    network := key.network
    fingerprint := key.fingerprint.toNat
    edgeCount := key.edgeCount
    clusterCount := key.clusterCount
    policy := key.policy.tag
    colStart := startsOf 0 m.columns.toList
    rows := m.columns.toList.flatMap fun column => column.map (·.index) }

def encode (a : Archive) : Bytes :=
  a.magic ++ putNatural 4 a.version ++ putText a.network ++ putNatural 8 a.fingerprint ++
    putNatural 8 a.edgeCount ++ putNatural 8 a.clusterCount ++ putNatural 1 a.policy ++
    putWords a.colStart ++ putWords a.rows

/-- The archive at the front of some bytes; what follows it is ignored. -/
def decode (input : Bytes) : Except EncodingFault Archive := do
  let (magic, rest) ← takeBytes 8 input
  let (version, rest) ← takeNatural 4 rest
  let (network, rest) ← takeText rest
  let (fingerprint, rest) ← takeNatural 8 rest
  let (edgeCount, rest) ← takeNatural 8 rest
  let (clusterCount, rest) ← takeNatural 8 rest
  let (policy, rest) ← takeNatural 1 rest
  let (colStart, rest) ← takeWords rest
  let (rows, _) ← takeWords rest
  return { magic, version, network, fingerprint, edgeCount, clusterCount, policy, colStart, rows }

/-- The first respect in which the header disagrees with a key. -/
def mismatch? (a : Archive) (key : Key) : Option Staleness :=
  if a.magic ≠ magicBytes then some .notArchive
  else if a.version ≠ currentVersion then some (.version a.version currentVersion)
  else if a.fingerprint ≠ key.fingerprint.toNat ∨ a.network ≠ key.network then
    some (.network a.network)
  else if a.edgeCount ≠ key.edgeCount then some (.edges a.edgeCount key.edgeCount)
  else if a.clusterCount ≠ key.clusterCount then some (.clusters a.clusterCount key.clusterCount)
  else if a.policy ≠ key.policy.tag then some (.policy a.policy key.policy.tag)
  else none

/-- The column starts never go down. -/
def ascending : List Nat → Bool
  | a :: b :: rest => a ≤ b && ascending (b :: rest)
  | _ => true

/-- The entries cut into stretches, each of them as long as one start is from the next. -/
def slices : List Nat → List Nat → List (List EdgeId)
  | rows, a :: b :: rest =>
    (rows.take (b - a)).map (⟨·⟩) :: slices (rows.drop (b - a)) (b :: rest)
  | _, _ => []

/-- The matrix of the columns, for a key that the header agrees with. -/
def toMatrix (a : Archive) (key : Key) : Except MatrixFault AssignmentMatrix :=
  let width := key.clusterCount * key.clusterCount
  if a.colStart.length ≠ width + 1 then
    .error (.shape ⟨"column pointer", width + 1, a.colStart.length⟩)
  else if a.colStart.head? ≠ some 0 ∨ a.colStart.getLast? ≠ some a.rows.length
      ∨ !ascending a.colStart then
    .error (.stale .columnPointer)
  else AssignmentMatrix.ofColumns key.edgeCount key.clusterCount (slices a.rows a.colStart)

end Archive

/-- The matrix that some bytes hold for a key. -/
def read (key : Key) (bytes : Bytes) : Except MatrixFault AssignmentMatrix := do
  let archive ← (Archive.decode bytes).mapError .encoding
  match archive.mismatch? key with
  | some reason => .error (.stale reason)
  | none => archive.toMatrix key

/-- The bytes that hold a matrix for a key of its shape. -/
def write (key : Key) (m : AssignmentMatrix) : Except MatrixFault Bytes :=
  if m.edgeCount ≠ key.edgeCount ∨ m.clusterCount ≠ key.clusterCount then
    .error (.shape ⟨"TAM edge count vs cache key", key.edgeCount, m.edgeCount⟩)
  else .ok (Archive.ofMatrix key m).encode

end RoadFlow.Cache
