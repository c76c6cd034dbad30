import RoadFlow.Storage.FileTree
import RoadFlow.Text.Quoted

/-!
# Publishing files

A file is published by writing it under a name of its own and moving it over its path when it is
complete, so that a reader of the path sees an old file or a new one and never a part.
-/

namespace RoadFlow.Cache

open Storage (FileTree Path Fault)

/-- One operation on the tree. -/
inductive FileStep where
  | makeDirectories (path : Path)
  | create (path : Path)
  | append (path : Path) (bytes : List UInt8)
  | rename (source target : Path)
  deriving DecidableEq

def FileStep.run (files : FileTree) : FileStep → FileTree × Except Fault Unit
  | .makeDirectories path => files.makeDirectories path
  | .create path => files.settle (files.write path [])
  | .append path bytes => files.settle do
    let held ← files.read path
    files.write path (held ++ bytes)
  | .rename source target => files.settle (files.rename source target)

/-- Runs operations until one fails, and says why it did. -/
def runSteps (files : FileTree) : List FileStep → FileTree × Except Fault Unit
  | [] => (files, .ok ())
  | step :: rest =>
    match step.run files with
    | (files, .ok ()) => runSteps files rest
    | failed => failed

/-- The directory that a file is published in. -/
def directoryOf (target : Path) : Path :=
  match target.parent? with
  | some directory => if directory.names.isEmpty then ⟨target.place, ["."]⟩ else directory
  | none => ⟨target.place, ["."]⟩

/-- A name that no entry of the directory has. -/
def freshName (files : FileTree) (directory : Path) : String :=
  let taken := files.list directory
  let names := (List.range (taken.length + 1)).map fun n => ".tmp" ++ Text.hexPadded 6 n
  (names.find? fun name => !taken.contains name).getD ".tmp"

/-- The operations that publish some bytes at a path by way of a file of their own. -/
def publishSteps (temporary target : Path) (bytes : List UInt8) : List FileStep :=
  [.makeDirectories (directoryOf target), .create temporary, .append temporary bytes,
    .rename temporary target]

/-- Publishes some bytes at a path. A file that does not reach its path is removed again. -/
def publish (files : FileTree) (target : Path) (bytes : List UInt8) :
    FileTree × Except Fault Unit :=
  let directory := directoryOf target
  let temporary := directory.join (freshName files directory)
  match runSteps files (publishSteps temporary target bytes) with
  | (files, .ok ()) => (files, .ok ())
  | (files, .error fault) => (files.remove temporary, .error fault)

end RoadFlow.Cache
