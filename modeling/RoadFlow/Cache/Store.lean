import RoadFlow.Cache.Archive
import RoadFlow.Cache.Publish
import RoadFlow.Matrix.Assembly

/-!
# Stores of assembled matrices

A directory that keeps one matrix for each network name and number of clusters. A stored matrix is
used as long as its header agrees with what is asked for; otherwise it is assembled and stored
again.
-/

namespace RoadFlow.Cache

open Storage (FileTree Path)

/-- How a matrix was obtained. -/
inductive Outcome where
  | hit
  | miss
  | rebuilt (reason : MatrixFault)
  deriving DecidableEq

def Outcome.name : Outcome → String
  | .hit => "hit"
  | .miss => "miss"
  | .rebuilt _ => "rebuilt"

structure Cached where
  matrix : AssignmentMatrix
  outcome : Outcome
  /-- Present when the matrix was assembled. -/
  survey : Option AssemblySurvey
  deriving DecidableEq

def save (files : FileTree) (path : Path) (m : AssignmentMatrix) (key : Key) :
    FileTree × Except MatrixFault Unit :=
  match write key m with
  | .error fault => (files, .error fault)
  | .ok bytes =>
    let (files, result) := publish files path bytes
    (files, result.mapError .storage)

def load (files : FileTree) (path : Path) (key : Key) : Except MatrixFault AssignmentMatrix := do
  let bytes ← (files.read path).mapError .storage
  read key bytes

/-- The file of a network name and a number of clusters, within the directory. -/
def fileName (network : String) (clusters : Nat) : String :=
  s!"{network}_TAM_nclusters_{clusters}.bin"

def filePath (directory : Path) (network : String) (clusters : Nat) : Path :=
  directory.join (fileName network clusters)

/-- What comes of asking for a matrix: the files after it, the records and the matrix. -/
structure Retrieval where
  files : FileTree
  journal : Journal
  result : Except MatrixFault Cached

/-- Assembles a matrix and stores it. -/
def build (files : FileTree) (path : Path) (outcome : Outcome) (net : Network)
    (clusters : Clustering) (policy : Policy) : Retrieval :=
  match Assembly.ofPolicy net clusters policy with
  | .error fault => ⟨files, #[], .error fault⟩
  | .ok assembly =>
    let key := Key.ofNetwork net clusters.clusterCount policy
    let (files, saved) := save files path assembly.matrix key
    ⟨files, assembly.warnings,
      saved.map fun () => ⟨assembly.matrix, outcome, some assembly.survey⟩⟩

/-- The stored matrix if it can be used, or else a new one. -/
def obtain (files : FileTree) (directory : Path) (net : Network) (clusters : Clustering)
    (policy : Policy) : Retrieval :=
  let key := Key.ofNetwork net clusters.clusterCount policy
  let path := filePath directory net.name clusters.clusterCount
  if files.isPresent path then
    match load files path key with
    | .ok m => ⟨files, #[], .ok ⟨m, .hit, none⟩⟩
    | .error fault => build files path (.rebuilt fault) net clusters policy
  else build files path .miss net clusters policy

end RoadFlow.Cache
