import RoutingFabric.BlockGraph.Basic

/-!
# Building block graphs

Blocks, ports and interconnects are added one by one. Every addition is entered on both of its
sides, and nothing is added to a block, mode or pin that does not exist.
-/

namespace RoutingFabric.BlockGraph

/-- The graph with one block changed. -/
def modifyBlock (b : BlockGraph) (id : BlockId) (f : Block → Block) : Outcome BlockGraph := do
  return { b with blocks := ← alter b.blocks id f }

/-- The graph with one mode of a block changed. -/
def modifyMode (b : BlockGraph) (id : BlockId) (mode : Nat) (f : Mode → Mode) :
    Outcome BlockGraph := do
  let block ← b.block id
  if mode < block.modes.length then
    b.modifyBlock id fun block => { block with modes := block.modes.modify mode f }
  else fault .outOfRange

/-- The graph with a mode of a block more, and the number of that. -/
def addMode (b : BlockGraph) (id : BlockId) (name : String) : Outcome (Nat × BlockGraph) := do
  let block ← b.block id
  let b ← b.modifyBlock id fun block => { block with modes := block.modes ++ [{ name }] }
  return (block.modes.length, b)

/-- The graph with a block more in a mode of another, and the id of that. -/
def addChild (b : BlockGraph) (parent : BlockId) (mode : Nat) (type name : String) :
    Outcome (BlockId × BlockGraph) := do
  let id := b.blocks.size
  let depth ← word ((← b.block parent).depth + 1)
  let b ← b.modifyMode parent mode fun m => { m with children := m.children ++ [id] }
  return (id, { b with
    blocks := b.blocks.push { name, type, parent := some (parent, mode), depth } })

/-- The graph with so many bits of a port more, from bit `bit` on, and their ids. Pins of the
root are numbered from `boundary` on. -/
def addBits (b : BlockGraph) (block : BlockId) (kind : PortKind) (port : String) :
    Nat → Nat → Nat → Outcome (List PinId × BlockGraph)
  | 0, _, _ => .ok ([], b)
  | more + 1, bit, boundary => do
    let id := b.pins.size
    let number := if block = root then some boundary else none
    let b := { b with pins := b.pins.push { block, port, bit, kind, boundary := number } }
    let b ← b.modifyBlock block fun block => { block with pins := block.pins ++ [id] }
    let (ids, b) ← addBits b block kind port more (bit + 1) (boundary + 1)
    return (id :: ids, b)

/-- The bytes a pin id takes. -/
def pinIdBytes : Nat := 8

/-- The graph with a port of a block more, and the ids of its pins. The boundary pins are
numbered in the order they are added in. -/
def addPort (b : BlockGraph) (block : BlockId) (kind : PortKind) (port : String)
    (width : Nat) : Outcome (List PinId × BlockGraph) := do
  let top ← b.block root
  if tableLimit < pinIdBytes * width then fault .tooLarge
  else b.addBits block kind port width 0 top.pins.length

/-- The graph with an interconnect more, which has no edges yet, and the id of that. -/
def pushInterconnect (b : BlockGraph) (owner : BlockId) (mode : Nat) (name : String)
    (kind : InterconnectKind) : Outcome (InterconnectId × BlockGraph) := do
  let id := b.interconnects.size
  let b := { b with interconnects := b.interconnects.push { name, kind, owner, mode } }
  let b ← b.modifyMode owner mode fun m => { m with interconnects := m.interconnects ++ [id] }
  return (id, b)

/-- The graph with an edge of an interconnect more. -/
def connect (b : BlockGraph) (ic : InterconnectId) (source target : PinId) :
    Outcome BlockGraph := do
  let id := b.edges.size
  let b := { b with edges := b.edges.push ⟨source, target, ic⟩ }
  let pins ← alter b.pins source fun p => { p with outputs := p.outputs ++ [id] }
  let pins ← alter pins target fun p => { p with inputs := p.inputs ++ [id] }
  let interconnects ← alter b.interconnects ic fun i => { i with edges := i.edges ++ [id] }
  return { b with pins, interconnects }

/-- The graph with edges of an interconnect more. -/
def connectAll (b : BlockGraph) (ic : InterconnectId) (pairs : List (PinId × PinId)) :
    Outcome BlockGraph :=
  pairs.foldlM (fun b (source, target) => b.connect ic source target) b

/-- The connections of an interconnect that is given by its inputs and outputs. A wire needs
as many of the one as of the other. -/
def connections (kind : InterconnectKind) (inputs outputs : List PinId) :
    Outcome (List (PinId × PinId)) :=
  match kind with
  | .wire =>
    if inputs.length = outputs.length then .ok (inputs.zip outputs) else fault .refused
  | .fullMux => .ok (outputs.flatMap fun target => inputs.map fun source => (source, target))
  | .restrictedMux => fault .refused

/-- The graph with a wire or a full multiplexer more, and the id of that. -/
def addInterconnect (b : BlockGraph) (owner : BlockId) (mode : Nat) (name : String)
    (kind : InterconnectKind) (inputs outputs : List PinId) :
    Outcome (InterconnectId × BlockGraph) := do
  let (ic, b) ← b.pushInterconnect owner mode name kind
  let pairs ← connections kind inputs outputs
  return (ic, ← b.connectAll ic pairs)

/-- The graph with a multiplexer more that has only the connections listed, and the id of that.
The connections of an output are listed in the order of the inputs of its multiplexer. -/
def addRestrictedMux (b : BlockGraph) (owner : BlockId) (mode : Nat) (name : String)
    (pairs : List (PinId × PinId)) : Outcome (InterconnectId × BlockGraph) := do
  let (ic, b) ← b.pushInterconnect owner mode name .restrictedMux
  return (ic, ← b.connectAll ic pairs)

end RoutingFabric.BlockGraph
