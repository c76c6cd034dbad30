import RoadFlow.Network.Fault

/-!
# Faults of cluster assignments and assignment matrices
-/

namespace RoadFlow

/-- Two sizes that should agree. -/
structure ShapeFault where
  what : String
  expected : Nat
  got : Nat
  deriving DecidableEq

def ShapeFault.message (f : ShapeFault) : String := s!"{f.what}: expected {f.expected}, got {f.got}"

/-- Why a stored matrix is not the one asked for. -/
inductive Staleness where
  | notArchive
  | version (found expected : Nat)
  | network (found : String)
  | edges (found expected : Nat)
  | clusters (found expected : Nat)
  | policy (found expected : Nat)
  | columnPointer
  deriving DecidableEq

def Staleness.message : Staleness → String
  | .notArchive => "not a TAM cache file"
  | .version found expected => s!"format version {found} (expected {expected})"
  | .network found => "built for a different network (" ++ Text.quote found ++ ")"
  | .edges found expected => s!"{found} edges (expected {expected})"
  | .clusters found expected => s!"{found} clusters (expected {expected})"
  | .policy found expected => s!"cost policy tag {found} (expected {expected})"
  | .columnPointer => "malformed column pointer"

/-- Why bytes are no archive: they end too early, they announce a text longer than themselves, or
their text is none. -/
inductive EncodingFault where
  | ended
  | textTooLong
  | text (fault : Text.Utf8.Fault)
  deriving DecidableEq

def EncodingFault.message : EncodingFault → String
  | .ended => "io error: unexpected end of file"
  | .textTooLong => "io error: "
  | .text fault => "string is not valid utf8: " ++ fault.message

inductive MatrixFault where
  | network (fault : NetworkFault)
  | noClusters
  | shape (fault : ShapeFault)
  | labelOutOfRange (node label clusters : Nat)
  | emptyCluster (cluster : ClusterId)
  | unknownNode (name : String)
  | missingLabel (name : String)
  | edgeOutOfRange (edge edgeCount : Nat)
  | diagonalNotEmpty (column : Nat)
  | stale (reason : Staleness)
  | encoding (fault : EncodingFault)
  | storage (fault : Storage.Fault)
  | table (fault : Csv.Fault)
  deriving DecidableEq

def MatrixFault.message : MatrixFault → String
  | .network fault => fault.message
  | .noClusters => "number of clusters must be positive"
  | .shape fault => fault.message
  | .labelOutOfRange node label clusters =>
    s!"node {node} has cluster label {label}, but only {clusters} clusters exist"
  | .emptyCluster cluster => s!"cluster {cluster.label} has no member nodes"
  | .unknownNode name => "label file references unknown node " ++ Text.quote name
  | .missingLabel name => "node " ++ Text.quote name ++ " has no cluster label"
  | .edgeOutOfRange edge count => s!"edge index {edge} out of range (matrix has {count} rows)"
  | .diagonalNotEmpty column => s!"diagonal column {column} must be empty"
  | .stale reason => "stale TAM cache: " ++ reason.message
  | .encoding fault => "TAM cache encoding error: " ++ fault.message
  | .storage fault => "I/O error: " ++ fault.message
  | .table fault => "CSV error: " ++ fault.message

end RoadFlow
