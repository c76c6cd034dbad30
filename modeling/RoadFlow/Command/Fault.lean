import RoadFlow.Fit.Fault
import RoadFlow.Json.Scan
import RoadFlow.Report.Files

/-!
# What a run of the command fails with

A failure is told with everything that caused it, from the outside in.
-/

namespace RoadFlow

/-! ## Causes

What lies behind a fault's own message, the nearest cause first. -/

def NetworkFault.causes : NetworkFault → List String
  | .storage fault => [fault.message]
  | .table fault => [fault.message]
  | _ => []

def MatrixFault.causes : MatrixFault → List String
  | .network fault => fault.causes
  | .encoding fault => [fault.message]
  | .storage fault => [fault.message]
  | .table fault => [fault.message]
  | _ => []

def FitFault.causes {α : Type} : FitFault α → List String
  | .matrix fault => fault.causes
  | .storage fault => [fault.message]
  | .table fault => [fault.message]
  | _ => []

def ReportFault.causes : ReportFault → List String
  | .storage fault => [fault.message]
  | .table fault => [fault.message]
  | .shape _ => []

def Json.Fault.message : Json.Fault → String
  | .malformed => "the text is not a document"
  | .ended => "the document ends too early"
  | .mismatch => "a setting has a value of the wrong kind"

namespace Command

inductive CommandFault where
  | outputDirectory (path : String) (fault : Storage.Fault)
  | logFile (path : String) (fault : Storage.Fault)
  | settingsFile (path : String) (fault : Storage.Fault)
  | settingsBytes (path : String) (fault : Storage.Fault)
  | settingsDocument (path : String) (fault : Json.Fault)
  | tables (nodes links : String) (fault : NetworkFault)
  | labels (path : String) (fault : MatrixFault)
  | counts (path : String) (fault : FitFault Float32)
  | newFile (path : String) (fault : Storage.Fault)
  | matrix (fault : MatrixFault)
  | fit (fault : FitFault Float32)
  | report (fault : ReportFault)
  deriving DecidableEq

namespace CommandFault

def message : CommandFault → String
  | outputDirectory path _ => "Failed to create output directory " ++ path
  | logFile path _ => "Failed to create log file " ++ path
  | settingsFile path _ => "Failed to open " ++ path
  | settingsBytes path _ => "Failed to parse fit config " ++ path
  | settingsDocument path _ => "Failed to parse fit config " ++ path
  | tables nodes links _ => "Failed to load network " ++ nodes ++ " / " ++ links
  | labels path _ => "Failed to load cluster labels " ++ path
  | counts path _ => "Failed to load sensor counts " ++ path
  | newFile path _ => "Failed to create " ++ path
  | matrix fault => fault.message
  | fit fault => fault.message
  | report fault => fault.message

def causes : CommandFault → List String
  | outputDirectory _ fault => [fault.message]
  | logFile _ fault => [fault.message]
  | settingsFile _ fault => [fault.message]
  | settingsBytes _ fault => [fault.message]
  | settingsDocument _ fault => [fault.message]
  | tables _ _ fault => fault.message :: fault.causes
  | labels _ fault => fault.message :: fault.causes
  | counts _ fault => fault.message :: fault.causes
  | newFile _ fault => [fault.message]
  | matrix fault => fault.causes
  | fit fault => fault.causes
  | report fault => fault.causes

/-- Causes below each other; several are numbered from zero. -/
def causeLines (causes : List String) : List String :=
  match causes with
  | [cause] => ["    " ++ cause]
  | causes => causes.zipIdx.map fun (cause, i) => Decimal.padLeft 5 (toString i) ++ ": " ++ cause

/-- The whole text of a failure. -/
def text (f : CommandFault) : String :=
  let causes := if f.causes.isEmpty then [] else ["", "Caused by:"] ++ causeLines f.causes
  "\n".intercalate (("Error: " ++ f.message) :: causes) ++ "\n"

end CommandFault

end Command

end RoadFlow
