import RoadFlow.Fit.Settings
import RoadFlow.Hour
import RoadFlow.Matrix.Fault
import RoadFlow.OdPair

/-!
# Faults of fits
-/

namespace RoadFlow

/-- The most trips that one pair makes in one hour. -/
def tripLimit : Nat := 1000000

inductive FitFault (α : Type) where
  | noSensors
  | settings (fault : SettingsFault α)
  | shape (fault : ShapeFault)
  | edgeOutOfRange (edge edgeCount : Nat)
  | notFinite (edge hour : Nat)
  | tooManyTrips (pair : OdPair) (hour : Hour) (flow : α)
  | badHour (fault : HourFault)
  | matrix (fault : MatrixFault)
  | storage (fault : Storage.Fault)
  | table (fault : Csv.Fault)
  deriving DecidableEq

def FitFault.message : FitFault Float32 → String
  | .noSensors => "sensor edge set is empty; the fitting loss is undefined"
  | .settings fault => "invalid fit configuration: " ++ fault.message
  | .shape fault => fault.message
  | .edgeOutOfRange edge count => s!"sensor edge {edge} out of range (target has {count} edges)"
  | .notFinite edge hour => s!"target value for edge {edge}, hour {hour} is not finite"
  | .tooManyTrips pair hour flow =>
    s!"flow {singleText flow} for pair {pair.label} at {hour.label} exceeds " ++
      s!"{tripLimit} trips per cell"
  | .badHour fault => fault.message
  | .matrix fault => fault.message
  | .storage fault => "I/O error: " ++ fault.message
  | .table fault => "CSV error: " ++ fault.message

end RoadFlow
