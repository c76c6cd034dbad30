import RoadFlow.Fit.Observer
import RoadFlow.Report.Sink

/-!
# Reporting a run as it goes

An observer that writes the logged metrics and keeps the flows of a report at the best snapshot. A
run goes on when the writer refuses a call; the first refusal is kept until it is asked for.
-/

namespace RoadFlow

structure Recorder (ω ε : Type) where
  writer : ω
  /-- The first refusal since it was last asked for. -/
  fault : Option ε

namespace Recorder

variable {ω ε : Type}

def start (writer : ω) : Recorder ω ε := ⟨writer, none⟩

/-- Keeps a refusal if there is none yet. -/
def note (r : Recorder ω ε) : Except ε Unit → Recorder ω ε
  | .ok () => r
  | .error fault => { r with fault := some (r.fault.getD fault) }

/-- Makes a call to the writer. -/
def call (r : Recorder ω ε) (write : ω → ω × Except ε Unit) : Recorder ω ε :=
  let (writer, result) := write r.writer
  { r with writer }.note result

/-- The refusal kept so far, and the recorder without it. -/
def takeFault (r : Recorder ω ε) : Option ε × Recorder ω ε := (r.fault, { r with fault := none })

/-- Writes a snapshot. -/
def saveFlows (sink : Sink ω ε) (r : Recorder ω ε) (best : Flows Float32) : Recorder ω ε :=
  r.call fun w => sink.writeFlows w (pairLines best)

def hear (sink : Sink ω ε) (r : Recorder ω ε) : Call Float32 → Recorder ω ε
  | .log m => r.call fun w => sink.writeMetrics w m
  | .checkpoint _ best => (saveFlows sink r best).call sink.finish
  | .fitEnd _ (some best) => (saveFlows sink r best).call sink.finish
  | .fitEnd _ none => r.call sink.finish
  | .step _ | .newBest _ => r

end Recorder

/-- Reports a run to a sink. -/
def Observer.recording {ω ε : Type} (sink : Sink ω ε) : Observer Float32 (Recorder ω ε) where
  receive r call := (r.hear sink call, #[])

end RoadFlow
