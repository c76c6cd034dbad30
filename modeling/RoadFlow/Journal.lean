/-!
# Log records
-/

namespace RoadFlow

inductive Level where
  | debug
  | info
  | warn
  deriving DecidableEq

def Level.name : Level → String
  | .debug => "DEBUG"
  | .info => "INFO"
  | .warn => "WARN"

structure LogRecord where
  level : Level
  text : String
  deriving DecidableEq

def LogRecord.line (r : LogRecord) : String := r.level.name ++ ": " ++ r.text

/-- Records in the order in which they were made. -/
abbrev Journal := Array LogRecord

end RoadFlow
