import RoutingFabric.Fabric.Basic
import RoutingFabric.Json.Reader
import RoutingFabric.Json.Record

/-!
# Reading snapshots

A snapshot is a fabric without anything derived, as a JSON value. What may be missing from it is
listed with each record below.
-/

namespace RoutingFabric.Snapshot

open Json Json.Decode Json.Fields

/-! ### Names -/

/-- The names of the kinds of routing resources. -/
def kindNames : List (String × RoutingGraph.Kind) :=
  [("Source", .source), ("Sink", .sink), ("OPin", .outPin), ("IPin", .inPin),
   ("ChanX", .channelX), ("ChanY", .channelY)]

/-- The names of the directions. -/
def directionNames : List (String × Direction) :=
  [("Inc", .increasing), ("Dec", .decreasing), ("Bi", .both)]

/-- The names of the sides. -/
def sideNames : List (String × Side) :=
  [("Top", .top), ("Right", .right), ("Bottom", .bottom), ("Left", .left)]

/-- The names of the kinds of ports. -/
def portNames : List (String × BlockGraph.PortKind) :=
  [("Input", .input), ("Output", .output), ("Clock", .clock)]

/-- The names of the kinds of interconnects. -/
def interconnectNames : List (String × BlockGraph.InterconnectKind) :=
  [("Wire", .wire), ("FullMux", .fullMux), ("RestrictedMux", .restrictedMux)]

/-! ### Routing graphs -/

/-- The grid. -/
def grid : Decode Grid := record do
  return { width := ← required "width" number, height := ← required "height" number }

/-- A switch type. It is not buffered unless it says so. -/
def switch : Decode Switch := record do
  return { name := ← required "name" text, buffered := ← withDefault "buffered" false bool }

/-- An edge of the routing graph. -/
def edge : Decode RoutingGraph.Edge := record do
  return { sink := ← required "sink" number, switch := ← required "switch" number }

/-- A node of the routing graph. It may have no direction, no side and no edges. -/
def node : Decode RoutingGraph.Node := record do
  let kind ← required "kind" (name kindNames)
  let xlow ← required "xlow" number
  let ylow ← required "ylow" number
  let xhigh ← required "xhigh" number
  let yhigh ← required "yhigh" number
  let ptc ← required "ptc" number
  let direction ← withDefault "direction" none (nullable (name directionNames))
  let side ← withDefault "side" none (nullable (name sideNames))
  let fanIn ← required "fan_in" number
  let edges ← withDefault "edges" [] (list edge)
  return { kind, low := ⟨xlow, ylow⟩, high := ⟨xhigh, yhigh⟩, ptc, direction, side, fanIn, edges }

/-- The routing graph. -/
def graph : Decode RoutingGraph := record do
  return {
    switches := ← required "switches" (table switch)
    nodes := ← required "nodes" (table node) }

/-! ### Block graphs -/

/-- A mode of a block. -/
def mode : Decode BlockGraph.Mode := record do
  return {
    name := ← required "name" text
    children := ← required "children" (list number)
    interconnects := ← required "interconnects" (list number) }

/-- A block. It may have no parent. -/
def block : Decode BlockGraph.Block := record do
  return {
    name := ← required "name" text
    type := ← required "pb_type" text
    parent := ← missable "parent" (pair number number)
    depth := ← required "depth" number
    modes := ← required "modes" (list mode)
    pins := ← required "pins" (list number) }

/-- A pin of a block. It may have no boundary number. -/
def pin : Decode BlockGraph.Pin := record do
  return {
    block := ← required "node" number
    port := ← required "port" text
    bit := ← required "bit" number
    kind := ← required "kind" (name portNames)
    boundary := ← missable "top_ptc" number
    inputs := ← required "input_edges" (list number)
    outputs := ← required "output_edges" (list number) }

/-- An edge of a block graph. -/
def blockEdge : Decode BlockGraph.Edge := record do
  return {
    source := ← required "from" number
    target := ← required "to" number
    interconnect := ← required "interconnect" number }

/-- An interconnect. -/
def interconnect : Decode BlockGraph.Interconnect := record do
  return {
    name := ← required "name" text
    kind := ← required "kind" (name interconnectNames)
    owner := ← required "owner" number
    mode := ← required "mode" number
    edges := ← required "edges" (list number) }

/-- A block graph. -/
def blockGraph : Decode BlockGraph := record do
  return {
    name := ← required "name" text
    blocks := ← required "nodes" (table block)
    pins := ← required "pins" (table pin)
    edges := ← required "edges" (table blockEdge)
    interconnects := ← required "interconnects" (table interconnect) }

/-! ### Clusters and nets -/

/-- A cluster. It may have no modes, nets and forwarding outputs. -/
def cluster : Decode Cluster := record do
  let name ← required "name" text
  let blockGraph ← required "pb_graph" number
  let x ← required "x" number
  let y ← required "y" number
  let modes ← withDefault "modes" #[] (table (nullable number))
  let pinNets ← withDefault "pin_nets" #[] (table (nullable number))
  let routeThroughs ← withDefault "route_throughs" [] (list (pair number number))
  return { name, blockGraph, place := ⟨x, y⟩, modes, pinNets, routeThroughs }

/-- A net. It is routed over the routing graph unless it says otherwise, and may have no
trace. -/
def net : Decode Net := record do
  return {
    name := ← required "name" text
    dedicated := ← withDefault "is_global" false bool
    logical := ← required "logical" number
    trace := ← withDefault "trace" [] (list number) }

/-- A logical net. -/
def logicalNet : Decode LogicalNet := record do
  return { name := ← required "name" text }

/-- The nets. -/
def nets : Decode NetTable := record do
  return {
    nets := ← required "global" (table net)
    logicals := ← required "logical" (table logicalNet) }

/-- The fabric. It may have no cluster types, no clusters and no nets. -/
def fabric : Decode Fabric := record do
  return {
    grid := ← required "grid" grid
    graph := ← required "rr_graph" graph
    blockGraphs := ← withDefault "pb_graphs" #[] (table blockGraph)
    clusters := ← withDefault "clusters" #[] (table cluster)
    nets := ← withDefault "nets" {} nets }

/-- The fabric that a text holds. -/
def read (text : String) : Option Fabric := do
  fabric (← parse text)

end RoutingFabric.Snapshot
