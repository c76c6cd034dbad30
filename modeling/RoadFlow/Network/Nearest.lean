import RoadFlow.Network.Basic

/-!
# Nearest nodes
-/

namespace RoadFlow.Network

/-- The closer of the best node so far and another one; the earlier node wins a tie. -/
def closer (point : Point) (best : Option (NodeId × Float)) (node : Node) (i : Nat) :
    Option (NodeId × Float) :=
  let d := node.position.squaredDistance point
  match best with
  | none => some (⟨i⟩, d)
  | some (_, least) => if d < least then some (⟨i⟩, d) else best

/-- The node nearest to a point. Only an empty network has none. -/
def nearest? (net : Network) (point : Point) : Option NodeId :=
  (net.nodes.toList.zipIdx.foldl (fun best (node, i) => closer point best node i) none).map (·.1)

end RoadFlow.Network
