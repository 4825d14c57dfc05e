import RoutingFabric.Outcome

/-!
# Block graphs

A block graph describes one type of cluster: the hierarchy of its physical blocks, the modes a
block can be used in, and the interconnect between the pins of the blocks in each mode. A block
without modes is a primitive. The first block is the root, and its pins are the boundary of the
cluster.

All links are stored in both directions: blocks list their pins, modes their children and their
interconnects, interconnects their edges, and pins the edges on either side.
-/

namespace RoutingFabric

namespace BlockGraph

/-- Kind of a port. -/
inductive PortKind where
  | input
  | output
  | clock
  deriving DecidableEq

/-- Whether a port is fed from outside of its block. -/
def PortKind.isInput : PortKind → Bool
  | .input | .clock => true
  | .output => false

/-- Kind of an interconnect. -/
inductive InterconnectKind where
  /-- bit-wise connection of two ports, without configuration -/
  | wire
  /-- a multiplexer of every input in front of every output -/
  | fullMux
  /-- multiplexers of the inputs listed for each output -/
  | restrictedMux
  deriving DecidableEq

/-- Interconnect declared by a mode of a block. -/
structure Interconnect where
  name : String
  kind : InterconnectKind
  owner : BlockId
  mode : Nat
  edges : List EdgeId := []
  deriving DecidableEq

/-- Edge of an interconnect from one pin to another. -/
structure Edge where
  source : PinId
  target : PinId
  interconnect : InterconnectId
  deriving DecidableEq

/-- Mode of a block: the blocks and the interconnects that exist in it. -/
structure Mode where
  name : String
  children : List BlockId := []
  interconnects : List InterconnectId := []
  deriving DecidableEq

/-- Physical block. Its parent is the block whose mode holds it, together with that mode. -/
structure Block where
  name : String
  type : String
  parent : Option (BlockId × Nat) := none
  depth : Nat := 0
  modes : List Mode := []
  pins : List PinId := []
  deriving DecidableEq

/-- Whether a block has no inner structure. -/
def Block.isPrimitive (b : Block) : Bool := b.modes.isEmpty

/-- Pin of a block: one bit of a port. A boundary pin has the number that the pins of the
routing graph give it. -/
structure Pin where
  block : BlockId
  port : String
  bit : Nat
  kind : PortKind
  boundary : Option Nat := none
  inputs : List EdgeId := []
  outputs : List EdgeId := []
  deriving DecidableEq

/-- The root of the hierarchy. -/
def root : BlockId := 0

end BlockGraph

open BlockGraph in
/-- A block graph. -/
structure BlockGraph where
  name : String
  blocks : Array Block := #[]
  pins : Array Pin := #[]
  edges : Array Edge := #[]
  interconnects : Array Interconnect := #[]
  deriving DecidableEq

namespace BlockGraph

/-- The graph of a single block, which is the root. -/
def ofName (name : String) : BlockGraph := { name, blocks := #[{ name, type := name }] }

/-- The pin of an id. -/
def pin (b : BlockGraph) (id : PinId) : Outcome Pin := entry b.pins id

/-- The block of an id. -/
def block (b : BlockGraph) (id : BlockId) : Outcome Block := entry b.blocks id

/-- The edge of an id. -/
def edge (b : BlockGraph) (id : EdgeId) : Outcome Edge := entry b.edges id

/-- The interconnect of an id. -/
def interconnect (b : BlockGraph) (id : InterconnectId) : Outcome Interconnect :=
  entry b.interconnects id

/-- The depth of the deepest block. -/
def maxDepth (b : BlockGraph) : Nat := (b.blocks.toList.map (·.depth)).foldl max 0

/-- Whether a pin is an input of the cluster. -/
def isClusterInput (b : BlockGraph) (id : PinId) : Outcome Bool := do
  let p ← b.pin id
  return p.block = root && p.kind.isInput

/-- Whether a pin is an output of a primitive. -/
def isPrimitiveOutput (b : BlockGraph) (id : PinId) : Outcome Bool := do
  let p ← b.pin id
  if p.kind.isInput then return false
  else return (← b.block p.block).isPrimitive

/-! ### Modes in use -/

/-- The mode a block is used in. An unused block counts as used in its first mode. -/
def modeOf (modes : Array (Option Nat)) (id : BlockId) : Nat := (modes[id]?.join).getD 0

/-- Whether an edge exists in the modes in use. -/
def isActive (b : BlockGraph) (modes : Array (Option Nat)) (id : EdgeId) : Outcome Bool := do
  let e ← b.edge id
  let ic ← b.interconnect e.interconnect
  return modeOf modes ic.owner = ic.mode

/-- The edges that reach a pin in the modes in use. -/
def activeInputs (b : BlockGraph) (modes : Array (Option Nat)) (id : PinId) :
    Outcome (List EdgeId) := do
  let p ← b.pin id
  let active ← p.inputs.filterMapM fun e => do
    return if ← b.isActive modes e then some e else none
  return active

/-! ### Names -/

/-- The names of a block and of the blocks above it, from the top. The first argument bounds
the number of blocks above. -/
def pathOf (b : BlockGraph) : Nat → BlockId → List String → Outcome (List String)
  | 0, _, _ => fault .endless
  | more + 1, id, below => do
    let block ← b.block id
    match block.parent with
    | none => return block.name :: below
    | some (parent, _) => pathOf b more parent (block.name :: below)

/-- The place of a block in the hierarchy. A path longer than there are blocks has no end. -/
def blockPath (b : BlockGraph) (id : BlockId) : Outcome String := do
  let names ← b.pathOf (b.blocks.size + 1) id []
  return ".".intercalate names

/-- The name of a pin with its place in the hierarchy. -/
def pinName (b : BlockGraph) (id : PinId) : Outcome String := do
  let p ← b.pin id
  let path ← b.blockPath p.block
  return path ++ "." ++ p.port ++ "[" ++ Text.decimal p.bit ++ "]"

end BlockGraph

end RoutingFabric
