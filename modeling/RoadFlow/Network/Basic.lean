import RoadFlow.Id
import RoadFlow.Point
import Std.Data.HashMap

/-!
# Road networks

A directed graph of nodes with positions and edges with lengths. Edges keep the number they were
added with, parallel edges and loops included. The edges that leave a node are a slice of
`outEdges`, in ascending order.
-/

namespace RoadFlow

structure Node where
  name : String
  position : Point
  deriving DecidableEq

structure Edge where
  name : String
  source : NodeId
  target : NodeId
  length : Float
  deriving DecidableEq

structure Network where
  name : String
  nodes : Array Node
  edges : Array Edge
  /-- The slice of node `n` runs from entry `n` to entry `n + 1`. -/
  outStart : Array Nat
  outEdges : Array EdgeId
  nodeByName : Std.HashMap String NodeId
  edgeByName : Std.HashMap String EdgeId

namespace Network

def nodeCount (net : Network) : Nat := net.nodes.size

def edgeCount (net : Network) : Nat := net.edges.size

def isEmpty (net : Network) : Bool := net.nodes.isEmpty

def hasNode (net : Network) (n : NodeId) : Bool := n.index < net.nodeCount

def edge? (net : Network) (e : EdgeId) : Option Edge := net.edges[e.index]?

/-- The edges that leave a node, in ascending order. -/
def edgesFrom (net : Network) (n : NodeId) : List EdgeId :=
  let start := net.outStart.getD n.index 0
  let stop := net.outStart.getD (n.index + 1) 0
  (net.outEdges.extract start stop).toList

def isLoop (net : Network) (e : EdgeId) : Bool :=
  (net.edge? e).any fun edge => edge.source == edge.target

def findNode? (net : Network) (name : String) : Option NodeId := net.nodeByName[name]?

def findEdge? (net : Network) (name : String) : Option EdgeId := net.edgeByName[name]?

/-- The name of a node, which is empty for a number that no node has. -/
def nodeName (net : Network) (n : NodeId) : String :=
  (net.nodes[n.index]?.map (·.name)).getD ""

/-- The name of an edge, which is empty for a number that no edge has. -/
def edgeName (net : Network) (e : EdgeId) : String := ((net.edge? e).map (·.name)).getD ""

end Network

end RoadFlow
