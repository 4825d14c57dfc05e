import RoutingFabric.Box.Connection
import RoutingFabric.Slices

/-!
# The boxes of a device

All switch boxes and connection boxes of a device are kept column by column, and in a column
from the bottom up. The columns are independent of each other, so that they can be built in
slices, one for each thread.
-/

namespace RoutingFabric

/-- The boxes of some columns of a device. -/
structure DeviceBoxes where
  columns : Nat := 0
  rows : Nat := 0
  switch : Array SwitchBox := #[]
  connectionX : Array ConnectionBox := #[]
  connectionY : Array ConnectionBox := #[]
  deriving DecidableEq

namespace DeviceBoxes

variable (g : RoutingGraph) (grid : Grid)

/-- The number of columns of the device. -/
def columnCount : Nat := grid.lastX + 1

/-- The number of rows of the device. -/
def rowCount : Nat := grid.lastY + 1

/-- The tiles of a range of columns. -/
def tiles (columns : Range) : List Tile :=
  columns.toList.flatMap fun x => (List.range (rowCount grid)).map fun y => ⟨x, y⟩

/-- The boxes of a range of columns. -/
def ofColumns (columns : Range) : Outcome DeviceBoxes := do
  let tiles := tiles grid columns
  return {
    columns := columns.length
    rows := rowCount grid
    switch := (← tiles.mapM (SwitchBox.build g grid)).toArray
    connectionX := (← tiles.mapM (ConnectionBox.build g · .x)).toArray
    connectionY := (← tiles.mapM (ConnectionBox.build g · .y)).toArray }

/-- The boxes of adjacent columns, side by side. -/
def beside (a b : DeviceBoxes) : DeviceBoxes where
  columns := a.columns + b.columns
  rows := a.rows
  switch := a.switch ++ b.switch
  connectionX := a.connectionX ++ b.connectionX
  connectionY := a.connectionY ++ b.connectionY

/-- The ranges of columns that so many threads build. -/
def shards (threads : Nat) : List Range :=
  let all : Range := ⟨0, columnCount grid⟩
  if threads ≤ 1 then [all] else all.slices threads

/-- The boxes of the device, built by so many threads. -/
def build (threads : Nat) : Outcome DeviceBoxes := do
  let built ← (shards grid threads).mapM (ofColumns g grid)
  return built.foldl beside { rows := rowCount grid }

/-- The place of the boxes of a tile. -/
def indexOf? (d : DeviceBoxes) (t : Tile) : Option Nat :=
  if t.x < d.columns ∧ t.y < d.rows then some (t.x * d.rows + t.y) else none

/-- The switch box of a tile. -/
def switchAt (d : DeviceBoxes) (t : Tile) : Outcome (Option SwitchBox) :=
  match d.indexOf? t with
  | some i => do return some (← entry d.switch i)
  | none => .ok none

/-- The connection boxes of an axis. -/
def connection (d : DeviceBoxes) : Axis → Array ConnectionBox
  | .x => d.connectionX
  | .y => d.connectionY

/-- The connection box of a tile and an axis. -/
def connectionAt (d : DeviceBoxes) (t : Tile) (axis : Axis) : Outcome (Option ConnectionBox) :=
  match d.indexOf? t with
  | some i => do return some (← entry (d.connection axis) i)
  | none => .ok none

end DeviceBoxes

end RoutingFabric
