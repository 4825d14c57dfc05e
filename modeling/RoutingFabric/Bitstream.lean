import RoutingFabric.Box.Chain
import RoutingFabric.Options.Basic

/-!
# Bitstreams

The bitstream of an annotated fabric holds the configuration bits of every multiplexer, block by
block: the routing boxes in the order of the configuration chain, and the clusters. A routing
box sets the multiplexers in front of its nodes, a cluster those in front of its pins.
-/

namespace RoutingFabric

/-- The configuration bits of a block, with the number of its multiplexers. Only a routing box
has a stretch of the configuration chain. -/
structure BlockBits where
  name : String
  span : Option Box.Span
  muxes : Nat
  bits : ConfigBits
  deriving DecidableEq

/-- A bitstream. -/
structure Bitstream where
  boxes : List BlockBits := []
  clusters : List BlockBits := []
  deriving DecidableEq

namespace Bitstream

/-- The bits of all routing boxes, in the order of the chain. -/
def routingBits (s : Bitstream) : ConfigBits :=
  s.boxes.foldl (fun bits block => bits ++ block.bits) .empty

/-- All blocks, routing boxes first. -/
def blocks (s : Bitstream) : List BlockBits := s.boxes ++ s.clusters

/-- The first block of a name. -/
def block? (s : Bitstream) (name : String) : Option BlockBits :=
  s.blocks.find? (·.name = name)

/-! ### Encoding -/

/-- The bits of multiplexers, one after another. -/
def encodeAll (circuit : Mux.Circuit) :
    Mux.Library → List MuxSetting → Outcome (Mux.Library × ConfigBits)
  | lib, [] => return (lib, .empty)
  | lib, m :: rest => do
    let (lib, bits) := lib.encode m.size circuit m.path
    let bits ← bits
    let (lib, more) ← encodeAll circuit lib rest
    return (lib, bits ++ more)

/-- The bits of a routing box, which have to fill its stretch of the chain. -/
def boxBits (g : RoutingGraph) (circuit : Mux.Circuit) (lib : Mux.Library) (name : String)
    (span : Box.Span) (nodes : List NodeId) : Outcome (Mux.Library × BlockBits) := do
  let muxes ← Box.settings g nodes
  let (lib, bits) ← encodeAll circuit lib muxes
  if bits.length = span.length then
    return (lib, ⟨name, some span, muxes.length, bits⟩)
  else fail (.confBitSpanMismatch name span.length bits.length)

/-- The multiplexer in front of a pin, if the pin needs one. A pin that selects no driver takes
its first edge. -/
def pinSetting (b : BlockGraph) (c : Cluster) (id : PinId) : Outcome (Option MuxSetting) := do
  let fanIn := (← b.activeInputs c.modes id).length
  if fanIn < 2 then return none
  else
    let s ← c.locals.pin id
    return some ⟨fanIn, (s.selected.map (·.path)).getD 0⟩

/-- The number of multiplexers in front of the pins of a list, and their bits. -/
def encodePins (b : BlockGraph) (circuit : Mux.Circuit) (c : Cluster) :
    Mux.Library → List PinId → Outcome (Mux.Library × Nat × ConfigBits)
  | lib, [] => return (lib, 0, .empty)
  | lib, id :: rest => do
    match ← pinSetting b c id with
    | none => encodePins b circuit c lib rest
    | some m => do
      let (lib, bits) := lib.encode m.size circuit m.path
      let bits ← bits
      let (lib, count, more) ← encodePins b circuit c lib rest
      return (lib, count + 1, bits ++ more)

/-- The bits of a cluster. -/
def clusterBits (b : BlockGraph) (circuit : Mux.Circuit) (lib : Mux.Library) (c : Cluster) :
    Outcome (Mux.Library × BlockBits) := do
  let (lib, muxes, bits) ← encodePins b circuit c lib (List.range b.pins.size)
  return (lib, ⟨c.name, none, muxes, bits⟩)

/-- The bits of the blocks of a list, one after another. -/
def collect {β : Type} (encode : Mux.Library → β → Outcome (Mux.Library × BlockBits)) :
    Mux.Library → List β → Outcome (Mux.Library × List BlockBits)
  | lib, [] => return (lib, [])
  | lib, block :: rest => do
    let (lib, bits) ← encode lib block
    let (lib, more) ← collect encode lib rest
    return (lib, bits :: more)

/-! ### Assembly -/

/-- An assembled bitstream, with the boxes that have their stretches of the chain, the length of
the chain, and the models of the multiplexers. -/
structure Assembly where
  bitstream : Bitstream
  boxes : DeviceBoxes
  total : Nat
  library : Mux.Library

/-- The bitstream of an annotated fabric. -/
def assemble (f : Fabric) (o : Options) (d : DeviceBoxes) : Outcome Assembly := do
  let allocated := (DeviceBoxes.allocate f.graph o.switchMux o.connectionMux .empty).run d
  let (lib, total) ← allocated.outcome
  let d := allocated.state
  let (lib, switch) ← collect
    (fun lib (b : SwitchBox) => boxBits f.graph o.switchMux lib b.name b.span b.muxNodes)
    lib d.switch.toList
  let (lib, connection) ← collect
    (fun lib (b : ConnectionBox) =>
      boxBits f.graph o.connectionMux lib b.name b.span b.muxNodes)
    lib (d.connectionX.toList ++ d.connectionY.toList)
  let (lib, clusters) ← collect
    (fun lib c => do clusterBits (← f.blockGraphOf c) o.clusterMux lib c)
    lib f.clusters.toList
  return ⟨⟨switch ++ connection, clusters⟩, d, total, lib⟩

end Bitstream

end RoutingFabric
