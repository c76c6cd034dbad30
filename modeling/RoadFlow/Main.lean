import RoadFlow.Command.Run

/-!
# The command

Reads the files that the arguments name, runs the command on them and writes back what it changed.
-/

namespace RoadFlow.Command

open Storage (FileTree Location)

def textOf (l : Location) : String := "/" ++ "/".intercalate l

/-- What the disk holds at a location. -/
def look (l : Location) : IO (Option Storage.FileNode) := do
  try
    let found ← IO.FS.realPath (textOf l)
    if ← found.isDir then return some (.directory [])
    else return some (.file (← IO.FS.readBinFile found).toList)
  catch _ => return none

/-- What the disk holds at some locations, each of which follows those around it. -/
def gatherFiles (locations : List Location) : IO FileTree := do
  let mut files := FileTree.empty
  for l in locations do
    if (files.entry? l).isNone then
      match ← look l with
      | some node => files := files.put l node
      | none => pure ()
  return files

/-- Writes an entry. A file takes its place at once. -/
def keep (l : Location) : Storage.Entry → IO Unit
  | .directory => IO.FS.createDirAll (textOf l)
  | .file bytes => do
    let waiting := textOf l ++ ".part"
    IO.FS.writeBinFile waiting ⟨bytes.toArray⟩
    IO.FS.rename waiting (textOf l)

/-- Writes the entries in which a tree differs from an earlier one. -/
def keepChanges (before after : FileTree) (locations : List Location) : IO Unit := do
  for l in locations.eraseDups do
    if before.entry? l ≠ after.entry? l then
      match after.entry? l with
      | some entry => keep l entry
      | none => pure ()

def showLines (lines : List String) : IO Unit := do
  let out ← IO.getStdout
  for line in lines do
    out.putStrLn line

/-- Runs a plan on the disk. -/
def perform (o : Options) (source : Source) : IO Ending := do
  let place := ((← IO.currentDir).toString.splitOn "/").filter (· ≠ "")
  let locations := ((Session.start .empty place).paths o source).flatMap (·.stops)
  let files ← gatherFiles locations
  let (session, ending) := execute o source (.start files place)
  keepChanges files session.files locations
  showLines ((shownRecords o session.journal).map (·.line))
  return ending

end RoadFlow.Command

open RoadFlow.Command in
def main (arguments : List String) : IO UInt32 := do
  let ending ← match plan arguments with
    | .error ending => pure ending
    | .ok (o, source) => perform o source
  showLines ending.lines
  (← IO.getStderr).putStr ending.complaint
  return ending.status.toUInt32
