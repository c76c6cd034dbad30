import RoadFlow.Cluster.Clustering
import RoadFlow.Fit.Flows
import RoadFlow.Random.Range

/-!
# Trips

Single trips drawn from fitted flows. A pair makes as many trips in an hour as its flow rounds to;
each leaves a random node of the origin for a random node of the destination at a random minute,
and comes back some hours later.
-/

namespace RoadFlow

/-- Hours from departure to return. -/
def returnAfter : Nat := 8

structure Trip where
  /-- From 1, in the order of drawing. -/
  number : Nat
  origin : ClusterId
  destination : ClusterId
  originNode : NodeId
  destinationNode : NodeId
  hour : Hour
  minute : Nat
  deriving DecidableEq

namespace Trip

def returnHour (t : Trip) : Hour := t.hour.add returnAfter

def departureTime (t : Trip) : String := t.hour.clockTime t.minute

def returnTime (t : Trip) : String := t.returnHour.clockTime t.minute

end Trip

/-- Numbers that trips can be counted from. -/
class TripCount (α : Type) where
  /-- The whole number nearest to a flow, a half going up. Flows that are not positive and finite
  count as none, and counts end with 64 bits. -/
  count : α → Nat

instance : TripCount Float32 where
  count x := min (Decimal.Format.single.exact x.toBits.toNat).roundHalfUp (twoTo 64 - 1)

namespace Trips

variable {α : Type} [Scalar α] [TripCount α]

/-- The first pair and hour with too many trips, row by row. -/
def tooMany? (f : Flows α) (clusters : Nat) : Option (FitFault α) :=
  (f.pairs.cells.find? fun (_, _, flow) => tripLimit < TripCount.count flow).bind
    fun (c, h, flow) =>
      if bound : h < hoursPerDay then
        some (.tooManyTrips (OdPair.ofColumn c clusters) ⟨h, bound⟩ flow)
      else none

/-- What keeps trips from being drawn. -/
def fault? (f : Flows α) (clusters : Clustering) : Option (FitFault α) :=
  let z := clusters.clusterCount
  if f.clusterCount ≠ z then some (.shape ⟨"flow clusters", z, f.clusterCount⟩)
  else if f.pairs.rows ≠ z * z ∨ f.pairs.cols ≠ hoursPerDay then
    some (.shape ⟨"flow rows", z * z, f.pairs.rows⟩)
  else tooMany? f z

/-- The pairs and hours in the order in which their trips are drawn, with the trips they make. -/
def demand (f : Flows α) (clusters : Clustering) : List (OdPair × Hour × Nat) :=
  clusters.clusters.flatMap fun origin => clusters.clusters.flatMap fun destination =>
    let pair : OdPair := ⟨origin, destination⟩
    Hour.all.map fun hour => (pair, hour, TripCount.count (f.flow pair hour))

/-- Trips drawn so far and the stream they are drawn from. -/
structure Drawing where
  trips : Array Trip
  stream : Random.Stream

/-- Draws one trip. A cluster without nodes makes none. -/
def Drawing.draw (clusters : Clustering) (pair : OdPair) (hour : Hour) (d : Drawing) : Drawing :=
  let (origin, s) := d.stream.choose (clusters.membersOf pair.origin)
  let (destination, s) := s.choose (clusters.membersOf pair.destination)
  match origin, destination with
  | some o, some e =>
    let (minute, s) := s.byteIn 0 60
    let number := d.trips.size + 1
    ⟨d.trips.push ⟨number, pair.origin, pair.destination, o, e, hour, minute⟩, s⟩
  | _, _ => { d with stream := s }

/-- Draws so many trips of one pair in one hour. -/
def Drawing.drawMany (clusters : Clustering) (pair : OdPair) (hour : Hour) :
    Nat → Drawing → Drawing
  | 0, d => d
  | n + 1, d => drawMany clusters pair hour n (d.draw clusters pair hour)

/-- The trips of some flows and the stream after them. Nothing is drawn if there is a fault. -/
def sample (f : Flows α) (clusters : Clustering) (s : Random.Stream) :
    Random.Stream × Except (FitFault α) (Array Trip) :=
  match fault? f clusters with
  | some fault => (s, .error fault)
  | none =>
    let d := (demand f clusters).foldl
      (fun d (pair, hour, n) => Drawing.drawMany clusters pair hour n d) ⟨#[], s⟩
    (d.stream, .ok d.trips)

end Trips

end RoadFlow
