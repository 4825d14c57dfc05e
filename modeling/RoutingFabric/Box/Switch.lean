import RoutingFabric.Box.Basic
import RoutingFabric.Fabric.Basic

/-!
# Switch boxes

The switch box at (x, y) sits at the top right corner of the block at (x, y):

                  block (x, y+1) │ CHANY (x, y+1) │ block (x+1, y+1)
                 ────────────────┼────────────────┼─────────────────
                  CHANX (x, y)   │ switch box     │ CHANX (x+1, y)
                 ────────────────┼────────────────┼─────────────────
                  block (x, y)   │ CHANY (x, y)   │ block (x+1, y)

A wire that leaves through a side has its multiplexer in the box if it starts at the channel
segment on that side. Any other wire that leaves passes.
-/

namespace RoutingFabric

namespace Box

open RoutingGraph

/-- An offset from the place of a switch box. -/
structure Offset where
  right : Bool
  up : Bool
  deriving DecidableEq

/-- The tile at an offset from another. -/
def Offset.from (o : Offset) (t : Tile) : Outcome Tile := do
  let x ← word (t.x + o.right.toNat)
  let y ← word (t.y + o.up.toNat)
  return ⟨x, y⟩

/-- What lies on a side of a switch box: a segment of the channel along an axis, and two sides
of blocks. -/
structure Geometry where
  axis : Axis
  segment : Offset
  blocks : List (Offset × Side)

/-- What lies on the sides of a switch box. -/
def geometry : Side → Geometry
  | .top => ⟨.y, ⟨false, true⟩, [(⟨false, true⟩, .right), (⟨true, true⟩, .left)]⟩
  | .right => ⟨.x, ⟨true, false⟩, [(⟨true, true⟩, .bottom), (⟨true, false⟩, .top)]⟩
  | .bottom => ⟨.y, ⟨false, false⟩, [(⟨true, false⟩, .left), (⟨false, false⟩, .right)]⟩
  | .left => ⟨.x, ⟨false, false⟩, [(⟨false, false⟩, .top), (⟨false, true⟩, .bottom)]⟩

end Box

/-- A switch box. -/
structure SwitchBox where
  place : Tile
  sides : Box.Sides := {}
  span : Box.Span := {}
  deriving DecidableEq

namespace SwitchBox

open RoutingGraph Box

/-- The name of a switch box. -/
def name (b : SwitchBox) : String :=
  "sb_" ++ Text.decimal b.place.x ++ "_" ++ Text.decimal b.place.y

/-- The nodes that have their multiplexer in the box, side by side. -/
def muxNodes (b : SwitchBox) : List NodeId :=
  b.sides.toList.flatMap fun side =>
    (side.channel.filter fun e => e.flow = .outgoing && !e.passing).map (·.node)

/-- Whether the wire at an index of a side leaves the box and passes. -/
def isPassing (b : SwitchBox) (side : Side) (i : Nat) : Bool :=
  match (b.sides.get side).channel[i]? with
  | some e => e.flow = .outgoing && e.passing
  | none => false

/-- Whether a side of the box at a tile lies at the edge of the grid. -/
def isBoundary (grid : Grid) (t : Tile) : Side → Bool
  | .top => t.y = grid.lastY
  | .right => t.x = grid.lastX
  | .bottom => t.y = 0
  | .left => t.x = 0

/-- A wire on a side whose channel segment is at a tile. -/
def channelEntry (g : RoutingGraph) (side : Side) (segment : Tile) (id : NodeId) :
    ChannelEntry :=
  let flow := side.flow (directionOf g id)
  let starts := g.nodes[id]?.map (·.start) = some segment
  ⟨id, flow, flow = .outgoing && !starts⟩

/-- A side of the box at a tile. -/
def buildSide (g : RoutingGraph) (grid : Grid) (t : Tile) (side : Side) : Outcome BoxSide := do
  if isBoundary grid t side then return {}
  else
    let geometry := geometry side
    let segment ← geometry.segment.from t
    let channel := (g.nodesAt (Kind.ofAxis geometry.axis) segment).map
      (channelEntry g side segment)
    let pins ← geometry.blocks.mapM fun (offset, blockSide) => do
      return blockPins g .outPin (← offset.from t) blockSide
    return { segment := some segment, channel, pins := pins.flatten }

/-- The switch box at a tile. -/
def build (g : RoutingGraph) (grid : Grid) (t : Tile) : Outcome SwitchBox := do
  let side := buildSide g grid t
  return {
    place := t
    sides := {
      top := ← side .top
      right := ← side .right
      bottom := ← side .bottom
      left := ← side .left } }

end SwitchBox

end RoutingFabric
