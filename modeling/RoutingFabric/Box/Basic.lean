import RoutingFabric.RoutingGraph.Lookup

/-!
# Routing boxes

A routing box is the part of a tile where wires meet. On each of its sides it lists the wires
of one channel segment, in track order, and the block pins that border the segment. A box owns
the multiplexers in front of some of its nodes, and for them a stretch of the configuration
chain of the device.
-/

namespace RoutingFabric.Box

open RoutingGraph

/-- A wire on a side of a box. It passes when the box has no multiplexer in front of it. -/
structure ChannelEntry where
  node : NodeId
  flow : Flow
  passing : Bool
  deriving DecidableEq

/-- A pin of a block, with the side of the block it sits on. -/
structure BlockPin where
  node : NodeId
  block : Tile
  side : Side
  deriving DecidableEq

/-- Side of a box. The channel segment is missing at the edge of the fabric. -/
structure BoxSide where
  segment : Option Tile := none
  channel : List ChannelEntry := []
  pins : List BlockPin := []
  deriving DecidableEq

/-- Whether there is nothing on a side. -/
def BoxSide.isEmpty (s : BoxSide) : Bool := s.channel.isEmpty && s.pins.isEmpty

/-- The sides of a box. -/
structure Sides where
  top : BoxSide := {}
  right : BoxSide := {}
  bottom : BoxSide := {}
  left : BoxSide := {}
  deriving DecidableEq

namespace Sides

/-- One of the sides. -/
def get (s : Sides) : Side → BoxSide
  | .top => s.top
  | .right => s.right
  | .bottom => s.bottom
  | .left => s.left

/-- The sides in order. -/
def toList (s : Sides) : List BoxSide := Side.all.map s.get

/-- Whether there is nothing on any side. -/
def isEmpty (s : Sides) : Bool := s.toList.all BoxSide.isEmpty

end Sides

/-- A stretch of the configuration chain from `lsb` up to and without `msb`, and the number of
reserved bits that the multiplexers of its box share. -/
structure Span where
  reserved : Nat := 0
  lsb : Nat := 0
  msb : Nat := 0
  deriving DecidableEq

/-- The number of bits of a stretch. -/
def Span.length (s : Span) : Nat := s.msb - s.lsb

/-- The pins of a kind on a side of a block. -/
def blockPins (g : RoutingGraph) (kind : Kind) (block : Tile) (side : Side) : List BlockPin :=
  (g.pinsAt kind block side).map fun node => ⟨node, block, side⟩

/-- The direction of a node. -/
def directionOf (g : RoutingGraph) (id : NodeId) : Option Direction :=
  g.nodes[id]?.bind (·.direction)

end RoutingFabric.Box
