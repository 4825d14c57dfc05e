import RoutingFabric.Box.Device
import RoutingFabric.Mux.Library
import RoutingFabric.Phase

/-!
# The configuration chain

The configuration bits of all boxes form one chain: switch boxes first, then the connection
boxes along the x axis, then those along the y axis, each in the order in which they are kept.
A box takes as many bits as its multiplexers need. A node that fewer than two edges reach needs
no multiplexer.
-/

namespace RoutingFabric

/-- A multiplexer to be set: its number of inputs, and the input to select. -/
structure MuxSetting where
  size : Nat
  path : Nat
  deriving DecidableEq

namespace Box

/-- The multiplexers in front of nodes. A node that selects no driver takes its first one. -/
def settings (g : RoutingGraph) (nodes : List NodeId) : Outcome (List MuxSetting) := do
  let nodes ← nodes.mapM g.node
  return (nodes.filter fun n => 2 ≤ n.fanIn).map fun n =>
    ⟨n.fanIn, (n.selected.map (·.path)).getD 0⟩

/-- The number of bits of multiplexers, and the largest number of bits that any of them
reserves. -/
def measure (circuit : Mux.Circuit) :
    Mux.Library → Nat → Nat → List MuxSetting → Outcome (Mux.Library × Nat × Nat)
  | lib, bits, reserved, [] => return (lib, bits, reserved)
  | lib, bits, reserved, m :: rest => do
    let (lib, model) := lib.get m.size circuit
    let model ← model
    let bits ← word (bits + (← model.confBitCount))
    measure circuit lib bits (max reserved model.reservedBits) rest

/-- The stretch of the chain, from a bit on, that the multiplexers in front of nodes take. -/
def allot (g : RoutingGraph) (circuit : Mux.Circuit) (lib : Mux.Library) (start : Nat)
    (nodes : List NodeId) : Outcome (Mux.Library × Span) := do
  let (lib, bits, reserved) ← measure circuit lib 0 0 (← settings g nodes)
  return (lib, ⟨reserved, start, ← word (start + bits)⟩)

/-- Boxes of one sort take their stretches of the chain one after another, from a bit on. Where
this fails, the boxes before have theirs. -/
def layOut {β : Type} (muxNodes : β → List NodeId) (record : β → Span → β) (g : RoutingGraph)
    (circuit : Mux.Circuit) :
    Mux.Library → Nat → List β → List β × Outcome (Mux.Library × Nat)
  | lib, start, [] => ([], .ok (lib, start))
  | lib, start, box :: rest =>
    match allot g circuit lib start (muxNodes box) with
    | .error e => (box :: rest, .error e)
    | .ok (lib, span) =>
      let (rest, result) := layOut muxNodes record g circuit lib span.msb rest
      (record box span :: rest, result)

end Box

namespace SwitchBox

/-- Switch boxes take their stretches of the chain. -/
def layOut (g : RoutingGraph) (circuit : Mux.Circuit) (lib : Mux.Library) (start : Nat)
    (boxes : Array SwitchBox) : Array SwitchBox × Outcome (Mux.Library × Nat) :=
  let (boxes, result) := Box.layOut muxNodes (fun b span => { b with span }) g circuit lib start
    boxes.toList
  (boxes.toArray, result)

end SwitchBox

namespace ConnectionBox

/-- Connection boxes take their stretches of the chain. -/
def layOut (g : RoutingGraph) (circuit : Mux.Circuit) (lib : Mux.Library) (start : Nat)
    (boxes : Array ConnectionBox) : Array ConnectionBox × Outcome (Mux.Library × Nat) :=
  let (boxes, result) := Box.layOut muxNodes (fun b span => { b with span }) g circuit lib start
    boxes.toList
  (boxes.toArray, result)

end ConnectionBox

namespace DeviceBoxes

/-- All boxes take their stretches of the chain. Given are the length of the chain and the
models of the multiplexers. -/
def allocate (g : RoutingGraph) (switchMux connectionMux : Mux.Circuit) (lib : Mux.Library) :
    Phase DeviceBoxes (Mux.Library × Nat) := do
  let d ← Phase.state
  let (switch, result) := SwitchBox.layOut g switchMux lib 0 d.switch
  let d := { d with switch }
  Phase.put d
  let (lib, next) ← Phase.lift result
  let (connectionX, result) := ConnectionBox.layOut g connectionMux lib next d.connectionX
  let d := { d with connectionX }
  Phase.put d
  let (lib, next) ← Phase.lift result
  let (connectionY, result) := ConnectionBox.layOut g connectionMux lib next d.connectionY
  Phase.put { d with connectionY }
  Phase.lift result

/-- The stretches of all boxes, in the order of the chain. -/
def spans (d : DeviceBoxes) : List Box.Span :=
  d.switch.toList.map (·.span) ++ d.connectionX.toList.map (·.span)
    ++ d.connectionY.toList.map (·.span)

end DeviceBoxes

end RoutingFabric
