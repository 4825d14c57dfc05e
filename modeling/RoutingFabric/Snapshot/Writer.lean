import RoutingFabric.Json.Writer
import RoutingFabric.Snapshot.Reader

/-!
# Writing snapshots

Every field of a snapshot is written, in the order in which the fields are read. Nothing derived
is written.
-/

namespace RoutingFabric.Snapshot

open Json

/-- The name of a value in a list of names. -/
def nameIn {α : Type} [DecidableEq α] (names : List (String × α)) (a : α) : Value :=
  .ofOption (fun entry => .text entry.1) (names.find? (·.2 = a))

/-- A list of numbers. -/
def numbers (ns : List Nat) : Value := .ofList .number ns

/-- A pair of numbers. -/
def numberPair (p : Nat × Nat) : Value := .array [.number p.1, .number p.2]

/-- A kind of routing resources. -/
def kindValue : RoutingGraph.Kind → Value := nameIn kindNames

/-- A direction. -/
def directionValue : Direction → Value := nameIn directionNames

/-- A side. -/
def sideValue : Side → Value := nameIn sideNames

/-- The grid. -/
def gridValue (g : Grid) : Value :=
  .object [("width", .number g.width), ("height", .number g.height)]

/-- A switch type. -/
def switchValue (s : Switch) : Value :=
  .object [("name", .text s.name), ("buffered", .bool s.buffered)]

/-- An edge of the routing graph. -/
def edgeValue (e : RoutingGraph.Edge) : Value :=
  .object [("sink", .number e.sink), ("switch", .number e.switch)]

/-- A node of the routing graph. -/
def nodeValue (n : RoutingGraph.Node) : Value :=
  .object [
    ("kind", kindValue n.kind),
    ("xlow", .number n.low.x),
    ("ylow", .number n.low.y),
    ("xhigh", .number n.high.x),
    ("yhigh", .number n.high.y),
    ("ptc", .number n.ptc),
    ("direction", .ofOption directionValue n.direction),
    ("side", .ofOption sideValue n.side),
    ("fan_in", .number n.fanIn),
    ("edges", .ofList edgeValue n.edges)]

/-- The routing graph. -/
def graphValue (g : RoutingGraph) : Value :=
  .object [
    ("switches", .ofList switchValue g.switches.toList),
    ("nodes", .ofList nodeValue g.nodes.toList)]

/-- A mode of a block. -/
def modeValue (m : BlockGraph.Mode) : Value :=
  .object [
    ("name", .text m.name),
    ("children", numbers m.children),
    ("interconnects", numbers m.interconnects)]

/-- A block. -/
def blockValue (b : BlockGraph.Block) : Value :=
  .object [
    ("name", .text b.name),
    ("pb_type", .text b.type),
    ("parent", .ofOption numberPair b.parent),
    ("depth", .number b.depth),
    ("modes", .ofList modeValue b.modes),
    ("pins", numbers b.pins)]

/-- A pin of a block. -/
def pinValue (p : BlockGraph.Pin) : Value :=
  .object [
    ("node", .number p.block),
    ("port", .text p.port),
    ("bit", .number p.bit),
    ("kind", nameIn portNames p.kind),
    ("top_ptc", .ofOption .number p.boundary),
    ("input_edges", numbers p.inputs),
    ("output_edges", numbers p.outputs)]

/-- An edge of a block graph. -/
def blockEdgeValue (e : BlockGraph.Edge) : Value :=
  .object [
    ("from", .number e.source),
    ("to", .number e.target),
    ("interconnect", .number e.interconnect)]

/-- An interconnect. -/
def interconnectValue (i : BlockGraph.Interconnect) : Value :=
  .object [
    ("name", .text i.name),
    ("kind", nameIn interconnectNames i.kind),
    ("owner", .number i.owner),
    ("mode", .number i.mode),
    ("edges", numbers i.edges)]

/-- A block graph. -/
def blockGraphValue (b : BlockGraph) : Value :=
  .object [
    ("name", .text b.name),
    ("nodes", .ofList blockValue b.blocks.toList),
    ("pins", .ofList pinValue b.pins.toList),
    ("edges", .ofList blockEdgeValue b.edges.toList),
    ("interconnects", .ofList interconnectValue b.interconnects.toList)]

/-- A list of numbers that may be missing. -/
def optionalNumbers (ns : Array (Option Nat)) : Value :=
  .ofList (.ofOption .number) ns.toList

/-- A cluster. -/
def clusterValue (c : Cluster) : Value :=
  .object [
    ("name", .text c.name),
    ("pb_graph", .number c.blockGraph),
    ("x", .number c.place.x),
    ("y", .number c.place.y),
    ("modes", optionalNumbers c.modes),
    ("pin_nets", optionalNumbers c.pinNets),
    ("route_throughs", .ofList numberPair c.routeThroughs)]

/-- A net. -/
def netValue (n : Net) : Value :=
  .object [
    ("name", .text n.name),
    ("is_global", .bool n.dedicated),
    ("logical", .number n.logical),
    ("trace", numbers n.trace)]

/-- A logical net. -/
def logicalNetValue (n : LogicalNet) : Value := .object [("name", .text n.name)]

/-- The nets. -/
def netsValue (t : NetTable) : Value :=
  .object [
    ("global", .ofList netValue t.nets.toList),
    ("logical", .ofList logicalNetValue t.logicals.toList)]

/-- A fabric. -/
def fabricValue (f : Fabric) : Value :=
  .object [
    ("grid", gridValue f.grid),
    ("rr_graph", graphValue f.graph),
    ("pb_graphs", .ofList blockGraphValue f.blockGraphs.toList),
    ("clusters", .ofList clusterValue f.clusters.toList),
    ("nets", netsValue f.nets)]

/-- The text of a fabric. -/
def write (f : Fabric) : String := compact (fabricValue f)

end RoutingFabric.Snapshot
