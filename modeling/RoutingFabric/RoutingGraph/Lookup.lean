import RoutingFabric.RoutingGraph.Basic

/-!
# Looking nodes up by place

The nodes of a kind at a tile are listed by their number and then by their id, so that the
wires of a channel come in the order of their tracks. The order is set up once; nodes added
later are not found until it is set up again.
-/

namespace RoutingFabric.RoutingGraph

/-- The number of a node. -/
def ptcOf (g : RoutingGraph) (id : NodeId) : Nat :=
  match g.nodes[id]? with
  | some n => n.ptc
  | none => 0

/-- Whether a node comes before another or is that node: the one of the smaller number, among
nodes of one number the one of the smaller id. -/
def comesFirst (g : RoutingGraph) (a b : NodeId) : Bool :=
  g.ptcOf a < g.ptcOf b || (g.ptcOf a = g.ptcOf b && a ≤ b)

/-- The graph in which all its nodes can be looked up. -/
def buildLookup (g : RoutingGraph) : RoutingGraph :=
  { g with lookup := g.ids.mergeSort g.comesFirst }

/-- Whether a node of a kind is found at a tile. -/
def isAt (g : RoutingGraph) (kind : Kind) (t : Tile) (id : NodeId) : Bool :=
  match g.nodes[id]? with
  | some n => n.isAt kind t
  | none => false

/-- The nodes of a kind at a tile. -/
def nodesAt (g : RoutingGraph) (kind : Kind) (t : Tile) : List NodeId :=
  g.lookup.filter (g.isAt kind t)

/-- The nodes of a kind at a tile that sit on a side of their block. -/
def pinsAt (g : RoutingGraph) (kind : Kind) (t : Tile) (side : Side) : List NodeId :=
  (g.nodesAt kind t).filter fun id => (g.nodes[id]?.bind (·.side)) = some side

/-- The first node of a kind and a number at a tile. -/
def findPin (g : RoutingGraph) (kind : Kind) (t : Tile) (pin : Nat) : Option NodeId :=
  (g.nodesAt kind t).find? fun id => g.ptcOf id = pin

end RoutingFabric.RoutingGraph
