import RoutingFabric.Outcome
import RoutingFabric.Side

/-!
# Routing graphs

The routing resources of a device: nodes for the wires of its channels, the pins of its blocks
and the sources and sinks behind them, and directed edges through switches. A node lists its
outgoing edges and declares how many edges reach it.

All else in a node is derived. The drivers and their common switch follow from the edges of
the other nodes, the selected driver and the nets from the routed design.
-/

namespace RoutingFabric

/-- Switch type. -/
structure Switch where
  name : String
  buffered : Bool := false
  deriving DecidableEq

namespace RoutingGraph

/-- Kind of a routing resource. -/
inductive Kind where
  | source
  | sink
  | outPin
  | inPin
  | channelX
  | channelY
  deriving DecidableEq

namespace Kind

/-- Whether the resource is a wire of a channel. -/
def isWire : Kind → Bool
  | .channelX | .channelY => true
  | _ => false

/-- Whether the resource is a pin of a block. -/
def isPin : Kind → Bool
  | .outPin | .inPin => true
  | _ => false

/-- The name of a kind in messages. -/
def label : Kind → String
  | .source => "SOURCE"
  | .sink => "SINK"
  | .outPin => "OPIN"
  | .inPin => "IPIN"
  | .channelX => "CHANX"
  | .channelY => "CHANY"

/-- The kind of the wires of a channel along an axis. -/
def ofAxis : Axis → Kind
  | .x => .channelX
  | .y => .channelY

end Kind

/-- Edge to a node through a switch. -/
structure Edge where
  sink : NodeId
  switch : SwitchId
  deriving DecidableEq

/-- Edge seen from the node it reaches: the driving node, the place of the edge among those of
the driving node, and the switch. -/
structure Driver where
  node : NodeId
  edge : Nat
  switch : SwitchId
  deriving DecidableEq

/-- The driver a node selects: the driving node, the place of the edge among those of the
driving node, and the place of the driver among the drivers. The latter is the input that the
multiplexer in front of the node has to select. -/
structure Selection where
  driver : NodeId
  edge : Nat
  path : Nat
  deriving DecidableEq

/-- A routing resource. Its number `ptc` is the track of a wire, the pin number of a pin, and
the class of a source or a sink. -/
structure Node where
  kind : Kind
  low : Tile
  high : Tile
  ptc : Nat
  direction : Option Direction := none
  side : Option Side := none
  fanIn : Nat := 0
  edges : List Edge := []
  drivers : List Driver := []
  driverSwitch : Option SwitchId := none
  selected : Option Selection := none
  net : Option NetId := none
  logical : Option LogicalId := none
  deriving DecidableEq

namespace Node

/-- The tile where the signal of a wire enters the fabric. -/
def start (n : Node) : Tile :=
  if n.direction = some .decreasing then n.high else n.low

/-- Whether a node spans a tile. -/
def covers (n : Node) (t : Tile) : Bool :=
  n.low.x ≤ t.x && t.x ≤ n.high.x && n.low.y ≤ t.y && t.y ≤ n.high.y

/-- Whether a node of a kind is found at a tile: a wire at every tile it spans, all else at its
low corner. -/
def isAt (n : Node) (kind : Kind) (t : Tile) : Bool :=
  n.kind = kind && if kind.isWire then n.covers t else n.low = t

/-- The node without what the routed design adds. -/
def unannotated (n : Node) : Node := { n with selected := none, net := none, logical := none }

/-- The node without all that is derived. -/
def bare (n : Node) : Node := { n.unannotated with drivers := [], driverSwitch := none }

end Node

end RoutingGraph

open RoutingGraph in
/-- A routing graph. Derived from the nodes is the order in which they are looked up, see
`RoutingGraph.buildLookup`. -/
structure RoutingGraph where
  switches : Array Switch := #[]
  nodes : Array Node := #[]
  lookup : List NodeId := []

namespace RoutingGraph

/-- The graph without switches and nodes. -/
def empty : RoutingGraph := {}

/-- The number of nodes. -/
def size (g : RoutingGraph) : Nat := g.nodes.size

/-- The ids of the nodes. -/
def ids (g : RoutingGraph) : List NodeId := List.range g.size

/-- The number of edges. -/
def edgeCount (g : RoutingGraph) : Nat := g.nodes.foldr (·.edges.length + ·) 0

/-- The node of an id. -/
def node (g : RoutingGraph) (id : NodeId) : Outcome Node := entry g.nodes id

/-- The graph with one node changed. -/
def modify (g : RoutingGraph) (id : NodeId) (f : Node → Node) : Outcome RoutingGraph := do
  return { g with nodes := ← alter g.nodes id f }

/-- The graph without all that is derived. -/
def bare (g : RoutingGraph) : RoutingGraph :=
  { g with nodes := g.nodes.map Node.bare, lookup := [] }

/-! ### Building -/

/-- The graph with a switch type more, and the id of that. -/
def addSwitch (g : RoutingGraph) (s : Switch) : SwitchId × RoutingGraph :=
  (g.switches.size, { g with switches := g.switches.push s })

/-- The graph with a node more, and the id of that. -/
def addNode (g : RoutingGraph) (n : Node) : NodeId × RoutingGraph :=
  (g.nodes.size, { g with nodes := g.nodes.push n })

/-- The graph with a wire more, and the id of that. -/
def addWire (g : RoutingGraph) (kind : Kind) (low high : Tile) (track : Nat)
    (direction : Direction) : Outcome (NodeId × RoutingGraph) :=
  if kind.isWire then
    .ok (g.addNode { kind, low, high, ptc := track, direction := some direction })
  else fault .refused

/-- The graph with a pin more, and the id of that. -/
def addPin (g : RoutingGraph) (kind : Kind) (tile : Tile) (pin : Nat) (side : Side) :
    Outcome (NodeId × RoutingGraph) :=
  if kind.isPin then
    .ok (g.addNode { kind, low := tile, high := tile, ptc := pin, side := some side })
  else fault .refused

/-- The graph with an edge more, which the node it reaches does not declare. -/
def pushEdge (g : RoutingGraph) (source : NodeId) (e : Edge) : Outcome RoutingGraph :=
  g.modify source fun n => { n with edges := n.edges ++ [e] }

/-- The graph with an edge more, which the node it reaches declares. -/
def addEdge (g : RoutingGraph) (source sink : NodeId) (switch : SwitchId) :
    Outcome RoutingGraph := do
  let g ← g.pushEdge source ⟨sink, switch⟩
  let n ← g.node sink
  let fanIn ← word (n.fanIn + 1)
  g.modify sink fun n => { n with fanIn }

/-- The graph with another switch on one edge. -/
def setEdgeSwitch (g : RoutingGraph) (id : NodeId) (edge : Nat) (switch : SwitchId) :
    Outcome RoutingGraph := do
  let n ← g.node id
  if edge < n.edges.length then
    g.modify id fun n => { n with edges := n.edges.modify edge ({ · with switch }) }
  else fault .outOfRange

/-! ### Names -/

/-- What a node is and where it lies, for messages. -/
def describe (g : RoutingGraph) (id : NodeId) : String :=
  match g.nodes[id]? with
  | some n =>
    n.kind.label ++ "#" ++ Text.decimal id ++ " (ptc " ++ Text.decimal n.ptc ++ ") at ("
      ++ Text.decimal n.low.x ++ "," ++ Text.decimal n.low.y ++ ")..("
      ++ Text.decimal n.high.x ++ "," ++ Text.decimal n.high.y ++ ")"
  | none => "<invalid rr node #" ++ Text.decimal id ++ ">"

end RoutingGraph

end RoutingFabric
