import RoadFlow.Journal
import RoadFlow.Network.Basic
import RoadFlow.Sensor.Target

/-!
# Targets from tables

A table of hourly counts on edges given by name. Counts are often collected on a larger network, so
rows with unknown names are passed over.
-/

namespace RoadFlow

/-- A row of the table. -/
structure CountRow (α : Type) where
  edge : String
  hour : Nat
  volume : α
  deriving DecidableEq

namespace Counts

open Csv (Kind Schema)

def schema : Schema :=
  ⟨"CountRecord", [⟨"link_id", .text⟩, ⟨"hour", .natural (twoTo 64)⟩, ⟨"volume", .single⟩]⟩

def rowOfFields (fields : Csv.Row schema.columns) : CountRow Float32 :=
  let (edge, hour, volume, ()) := fields
  ⟨edge, hour, volume⟩

/-- What the rows give up to the first one that is refused: the observations, the unknown names, and
why the scan stopped early. -/
structure Scan (α : Type) where
  observations : List (Observation α)
  unknown : List String
  fault : Option (FitFault α)

variable {α : Type} [Scalar α]

/-- The hour of a row is looked at only if its edge is known. -/
def scan (net : Network) : List (Except Csv.Fault (CountRow α)) → Scan α
  | [] => ⟨[], [], none⟩
  | .error fault :: _ => ⟨[], [], some (.table fault)⟩
  | .ok row :: rest =>
    match net.findEdge? row.edge with
    | none =>
      let s := scan net rest
      { s with unknown := row.edge :: s.unknown }
    | some e =>
      match Hour.ofNat row.hour with
      | .error fault => ⟨[], [], some (.badHour fault)⟩
      | .ok hour =>
        let s := scan net rest
        { s with observations := ⟨e, hour, row.volume⟩ :: s.observations }

/-- The target of the rows. -/
def target (net : Network) (s : Scan α) : Except (FitFault α) (Target α) :=
  match s.fault with
  | some fault => .error fault
  | none => Target.ofObservations net.edgeCount s.observations

/-- The warning at the first unknown name. -/
def firstUnknown (net : Network) (s : Scan α) : Journal :=
  match s.unknown.head? with
  | none => #[]
  | some name => #[⟨.warn, "counts reference link " ++ Text.quote name ++
      " which is not in network " ++ Text.quote net.name ++ "; skipping"⟩]

/-- The warning after all rows if several names were unknown. -/
def skippedRows (s : Scan α) : Journal :=
  if s.fault.isNone ∧ 1 < s.unknown.length then
    #[⟨.warn, s!"skipped {s.unknown.length} count rows for unknown links"⟩]
  else #[]

def loaded (result : Except (FitFault α) (Target α)) : Journal :=
  match result with
  | .ok t => #[⟨.debug, s!"loaded counts: {t.sensors.length} sensor edges of {t.edgeCount}"⟩]
  | .error _ => #[]

/-- The target of the rows and the records made on the way. -/
def ofRows (net : Network) (rows : List (Except Csv.Fault (CountRow α))) :
    Journal × Except (FitFault α) (Target α) :=
  let s := scan net rows
  let result := target net s
  (firstUnknown net s ++ skippedRows s ++ loaded result, result)

def ofTable (net : Network) (bytes : Csv.Bytes) :
    Journal × Except (FitFault Float32) (Target Float32) :=
  ofRows net ((Csv.rows schema bytes).map fun row => row.map rowOfFields)

def load (files : Storage.FileTree) (net : Network) (path : Storage.Path) :
    Journal × Except (FitFault Float32) (Target Float32) :=
  match files.find path with
  | .error fault => (#[], .error (.storage fault))
  | .ok entry => ofRows net ((Csv.rowsOfEntry schema entry).map fun row => row.map rowOfFields)

end Counts

end RoadFlow
