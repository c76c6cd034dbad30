import RoadFlow.Csv.Table
import RoadFlow.Network.Basic
import RoadFlow.Storage.FileTree
import RoadFlow.Text.Quoted

/-!
# Faults of networks and routes
-/

namespace RoadFlow

inductive NetworkFault where
  | noSuchNode (node : NodeId) (nodeCount : Nat)
  | badLength (edge : String) (length : Float)
  | noPath (source target : NodeId)
  | badPosition (node : String)
  | duplicateNode (name : String)
  | duplicateEdge (name : String)
  | unknownNode (name : String)
  | storage (fault : Storage.Fault)
  | table (fault : Csv.Fault)
  deriving DecidableEq

def NetworkFault.message : NetworkFault → String
  | .noSuchNode node count =>
    s!"node index {node.label} out of range (network has {count} nodes)"
  | .badLength edge length =>
    "link " ++ Text.quote edge ++ " has invalid length " ++
      Decimal.Format.double.plain length.toBits.toNat ++ " (must be finite and >= 0)"
  | .noPath source target => s!"no path from {source.label} to {target.label}"
  | .badPosition node => "node " ++ Text.quote node ++ " has a non-finite position"
  | .duplicateNode name => "duplicate node id " ++ Text.quote name
  | .duplicateEdge name => "duplicate link id " ++ Text.quote name
  | .unknownNode name => "link references unknown node " ++ Text.quote name
  | .storage fault => "I/O error: " ++ fault.message
  | .table fault => "CSV error: " ++ fault.message

/-- Refuses a node that the network does not have. -/
def Network.checkNode (net : Network) (n : NodeId) : Except NetworkFault Unit :=
  if net.hasNode n then .ok () else .error (.noSuchNode n net.nodeCount)

end RoadFlow
