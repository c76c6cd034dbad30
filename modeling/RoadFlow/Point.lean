import RoadFlow.Decimal.Layout

/-!
# Planar points

Positions are metres east and north in a projected plane, so distances are Euclidean.
-/

namespace RoadFlow

structure Point where
  x : Float
  y : Float
  deriving DecidableEq

namespace Point

def isFinite (p : Point) : Bool := p.x.isFinite && p.y.isFinite

/-- The square of the distance, enough where only the order matters. -/
def squaredDistance (p q : Point) : Float :=
  let dx := p.x - q.x
  let dy := p.y - q.y
  dx * dx + dy * dy

def distance (p q : Point) : Float := (p.squaredDistance q).sqrt

/-- The mean of some points, added up in order; none has no mean. -/
def centroid? (points : List Point) : Option Point :=
  if points.isEmpty then none
  else
    let x := points.foldl (fun sum p => sum + p.x) 0
    let y := points.foldl (fun sum p => sum + p.y) 0
    let count := Float.ofNat points.length
    some ⟨x / count, y / count⟩

/-- The coordinates with three places. -/
def label (p : Point) : String :=
  let text (v : Float) := Decimal.Format.double.fixed 3 v.toBits.toNat
  "(" ++ text p.x ++ ", " ++ text p.y ++ ")"

end Point

end RoadFlow
