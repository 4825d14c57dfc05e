/-!
# Sides, directions and tiles

The vocabulary of places: a tile of the grid, a side of a tile, a block or a routing box, the
direction a wire carries its signal in, and the axis a channel runs along.
-/

namespace RoutingFabric

/-- A position in the grid of blocks. -/
structure Tile where
  x : Nat
  y : Nat
  deriving DecidableEq

/-- Side of a tile, a block or a routing box. -/
inductive Side where
  | top
  | right
  | bottom
  | left
  deriving DecidableEq

namespace Side

/-- The sides, clockwise from the top. -/
def all : List Side := [.top, .right, .bottom, .left]

/-- The place of a side among the sides. -/
def index : Side → Nat
  | .top => 0
  | .right => 1
  | .bottom => 2
  | .left => 3

/-- The side across. -/
def opposite : Side → Side
  | .top => .bottom
  | .right => .left
  | .bottom => .top
  | .left => .right

/-- The name of a side. -/
def name : Side → String
  | .top => "top"
  | .right => "right"
  | .bottom => "bottom"
  | .left => "left"

/-- The side across from the side across is the side itself. -/
@[simp] theorem opposite_opposite (s : Side) : s.opposite.opposite = s := by cases s <;> rfl

/-- No side is across from itself. -/
theorem opposite_ne (s : Side) : s.opposite ≠ s := by cases s <;> decide

/-- Every side is among the sides. -/
theorem mem_all (s : Side) : s ∈ all := by cases s <;> decide

end Side

/-- Direction a wire carries its signal in. A wire of both directions is only ever read to be
rejected. -/
inductive Direction where
  | increasing
  | decreasing
  | both
  deriving DecidableEq

/-- Axis a channel runs along. -/
inductive Axis where
  | x
  | y
  deriving DecidableEq

/-- Way a signal takes through the side of a box. -/
inductive Flow where
  /-- the signal enters the box -/
  | incoming
  /-- the signal leaves the box -/
  | outgoing
  deriving DecidableEq

/-- The way a wire of a direction takes through a side. Increasing wires leave through the top
and the right, all others through the bottom and the left. -/
def Side.flow (s : Side) (d : Option Direction) : Flow :=
  match s with
  | .top | .right => if d = some .increasing then .outgoing else .incoming
  | .bottom | .left => if d = some .increasing then .incoming else .outgoing

end RoutingFabric
