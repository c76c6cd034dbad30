import RoadFlow.Report.Line

/-!
# Sinks

Where the rows of a report go: a writer that takes them and may refuse to. A refused call still
leaves the writer in some state.
-/

namespace RoadFlow

/-- Writers `ω` that refuse calls for reasons `ε`. -/
structure Sink (ω ε : Type) where
  writeMetrics : ω → Metrics Float32 → ω × Except ε Unit
  /-- Puts a snapshot in place of the one written before. -/
  writeFlows : ω → List PairLine → ω × Except ε Unit
  writeEdges : ω → List EdgeLine → ω × Except ε Unit
  writeClusters : ω → List ClusterLine → ω × Except ε Unit
  writeTrips : ω → List TripLine → ω × Except ε Unit
  /-- Brings everything written so far to its place. -/
  finish : ω → ω × Except ε Unit

end RoadFlow
