import RoutingFabric.Phase
import RoutingFabric.RoutingGraph.Basic

/-!
# Drivers

The drivers of a node are the edges that reach it, in the order of their nodes and, within a
node, in the order of its edges. Their number has to be the one the node declares, and all of
them have to come through one switch type, since wires of both directions are not supported.
-/

namespace RoutingFabric.RoutingGraph

/-- The bytes a driver takes. -/
def driverBytes : Nat := 24

/-- The edges of a node, each as a driver of the node it reaches. -/
def linksOf (id : NodeId) (n : Node) : List (NodeId × Driver) :=
  n.edges.zipIdx.map fun (e, place) => (e.sink, ⟨id, place, e.switch⟩)

/-- All edges of a graph, each as a driver of the node it reaches. -/
def links (g : RoutingGraph) : List (NodeId × Driver) :=
  g.nodes.toList.zipIdx.flatMap fun (n, id) => linksOf id n

/-- The drivers of every node. -/
def driverTable (g : RoutingGraph) : Array (List Driver) :=
  g.links.foldr (fun (sink, d) table => table.modify sink (d :: ·)) (Array.replicate g.size [])

/-- Each node is given its drivers, up to the first whose number is not the declared one. -/
def assignDrivers : List (NodeId × List Driver) → Phase RoutingGraph Unit :=
  Phase.each fun (id, drivers) => do
    let g ← Phase.state
    let n ← Phase.lift (g.node id)
    if drivers.length = n.fanIn then
      Phase.put (← Phase.lift (g.modify id ({ · with drivers })))
    else Phase.lift (fail (.fanInMismatch (g.describe id) n.fanIn drivers.length))

/-- Every node is given its drivers. -/
def buildDriverIndex : Phase RoutingGraph Unit := do
  let g ← Phase.state
  if g.nodes.any fun n => tableLimit < driverBytes * n.fanIn then
    Phase.lift (fault .tooLarge)
  else
    match g.links.find? fun (sink, _) => g.size ≤ sink with
    | some (sink, d) => Phase.lift (fail (.danglingEdge (g.describe d.node) sink))
    | none =>
      assignDrivers (g.driverTable.toList.zipIdx.map fun (drivers, id) => (id, drivers))
      Phase.report (.driverIndexBuilt g.size g.edgeCount)

/-- The switch that all drivers come through, if there are drivers. Otherwise the switch of the
first driver and the first that differs. -/
def commonSwitch : List Driver → Except (SwitchId × SwitchId) (Option SwitchId)
  | [] => .ok none
  | d :: rest =>
    match rest.find? fun other => other.switch ≠ d.switch with
    | some other => .error (d.switch, other.switch)
    | none => .ok (some d.switch)

/-- The graph in which a node knows the switch of its drivers. -/
def identifyDriverSwitch (g : RoutingGraph) (id : NodeId) : Outcome RoutingGraph := do
  let n ← g.node id
  if n.kind.isWire ∧ n.direction = some .both then
    fail (.bidirectionalWire (g.describe id))
  else
    match commonSwitch n.drivers with
    | .ok driverSwitch => g.modify id ({ · with driverSwitch })
    | .error (first, second) => fail (.inconsistentDriverSwitch (g.describe id) first second)

/-- Every node comes to know the switch of its drivers. -/
def identifyDriverSwitches : Phase RoutingGraph Unit := do
  let g ← Phase.state
  Phase.each (fun id => do
    let g ← Phase.state
    Phase.put (← Phase.lift (g.identifyDriverSwitch id))) g.ids

/-- The place of a node among the drivers of another: the input a multiplexer has to select
for it. -/
def pathId (g : RoutingGraph) (id driver : NodeId) : Outcome (Option Nat) := do
  return (← g.node id).drivers.findIdx? (·.node = driver)

end RoutingFabric.RoutingGraph
