import RoutingFabric.Box.Switch

/-!
# Connection boxes

The connection box at (x, y) of an axis covers the channel segment at (x, y) along that axis and
holds the multiplexers in front of the block pins on both sides of the segment. Along the x axis
these are the pins on the bottom of block (x, y+1) and on the top of block (x, y), along the
y axis those on the left of block (x+1, y) and on the right of block (x, y). All wires pass.
-/

namespace RoutingFabric

/-- A connection box. -/
structure ConnectionBox where
  place : Tile
  axis : Axis
  sides : Box.Sides := {}
  span : Box.Span := {}
  deriving DecidableEq

namespace ConnectionBox

open RoutingGraph Box

/-- The name of a connection box. -/
def name (b : ConnectionBox) : String :=
  (match b.axis with
    | .x => "cbx_"
    | .y => "cby_") ++ Text.decimal b.place.x ++ "_" ++ Text.decimal b.place.y

/-- The nodes that have their multiplexer in the box, side by side. -/
def muxNodes (b : ConnectionBox) : List NodeId :=
  b.sides.toList.flatMap fun side => side.pins.map (·.node)

/-- A side of the box that the channel enters through. -/
def channelSide (g : RoutingGraph) (t : Tile) (wires : List NodeId) (side : Side) : BoxSide where
  segment := some t
  channel := wires.map fun id => ⟨id, side.flow (directionOf g id), true⟩

/-- A side of the box that borders a side of a block. -/
def pinSide (g : RoutingGraph) (block : Tile) (side : Side) : BoxSide where
  pins := blockPins g .inPin block side

/-- The sides of the box at a tile along an axis. -/
def buildSides (g : RoutingGraph) (t : Tile) (axis : Axis) (wires : List NodeId) :
    Outcome Sides := do
  let channel := channelSide g t wires
  match axis with
  | .x => do
    let above ← Offset.from ⟨false, true⟩ t
    return {
      left := channel .left
      right := channel .right
      top := pinSide g above .bottom
      bottom := pinSide g t .top }
  | .y => do
    let beside ← Offset.from ⟨true, false⟩ t
    return {
      bottom := channel .bottom
      top := channel .top
      right := pinSide g beside .left
      left := pinSide g t .right }

/-- The connection box at a tile along an axis. It is empty where the channel has no wires. -/
def build (g : RoutingGraph) (t : Tile) (axis : Axis) : Outcome ConnectionBox := do
  match g.nodesAt (Kind.ofAxis axis) t with
  | [] => return { place := t, axis }
  | wires => return { place := t, axis, sides := ← buildSides g t axis wires }

end ConnectionBox

end RoutingFabric
