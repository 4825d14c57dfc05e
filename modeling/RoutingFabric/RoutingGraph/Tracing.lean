import RoutingFabric.Net
import RoutingFabric.Phase
import RoutingFabric.RoutingGraph.Drivers

/-!
# Tracing routed nets

Each routed net is walked along its trace. Every node on the way is claimed by the net, and
every node that follows another selects that one as its driver. A node belongs to at most one
net and has at most one driver; after a sink, the trace has to go on from a node of the net.
-/

namespace RoutingFabric

/-- What tracing counts: the nets traced, those left out, and the nodes claimed. -/
structure RoutingStats where
  routed : Nat := 0
  skipped : Nat := 0
  annotated : Nat := 0
  deriving DecidableEq

namespace RoutingGraph

/-- The graph without what the routed design adds. -/
def unannotated (g : RoutingGraph) : RoutingGraph :=
  { g with nodes := g.nodes.map Node.unannotated }

variable (t : NetTable) (net : NetId)

/-- The graph in which a node belongs to the net. Counted is whether it did not before. -/
def claim (g : RoutingGraph) (id : NodeId) : Outcome (Nat × RoutingGraph) := do
  match (← g.node id).net with
  | some existing =>
    if existing = net then return (0, g)
    else fail (.netConflict (g.describe id) (t.nameOf existing) (t.nameOf net))
  | none =>
    let logical ← t.logicalOf net
    let g ← g.modify id fun n => { n with net := some net, logical := some logical }
    return (1, g)

/-- The graph in which a node selects a driver. -/
def selectDriver (g : RoutingGraph) (id driver : NodeId) : Outcome RoutingGraph := do
  let n ← g.node id
  match n.drivers.zipIdx.find? (·.1.node = driver) with
  | none => fail (.driverNotFound (t.nameOf net) (g.describe driver) (g.describe id))
  | some (d, path) =>
    let selection : Selection := ⟨driver, d.edge, path⟩
    match n.selected with
    | some existing =>
      if existing = selection then return g
      else fail (.multipleDrivers (t.nameOf net) (g.describe id))
    | none => g.modify id ({ · with selected := some selection })

/-- Where a trace stands before its next node. -/
inductive TraceState where
  /-- at its start -/
  | start
  /-- after a sink -/
  | branch
  /-- after a node that drives the next -/
  | from (driver : NodeId)
  deriving DecidableEq

/-- A node is entered by the trace of the net. Counted is whether it did not belong to the net
before. -/
def enter (g : RoutingGraph) (at_ : TraceState) (id : NodeId) : Outcome (Nat × RoutingGraph) :=
  match at_ with
  | .start => claim t net g id
  | .from driver => do
    let (count, g) ← claim t net g id
    return (count, ← selectDriver t net g id driver)
  | .branch => do
    if (← g.node id).net = some net then return (0, g)
    else fail (.branchNotOnTree (t.nameOf net) (g.describe id))

/-- The nodes of a trace are entered, from the front. Counted are those that did not belong to
the net before. -/
def walkTrace (g : RoutingGraph) : TraceState → List NodeId → Outcome (Nat × RoutingGraph)
  | _, [] => return (0, g)
  | at_, id :: rest => do
    if id < g.size then
      let (here, g) ← enter t net g at_ id
      let n ← g.node id
      let next := if n.kind = .sink then .branch else .from id
      let (beyond, g) ← walkTrace g next rest
      return (here + beyond, g)
    else fail (.unknownTraceNode (t.nameOf net) id)

/-- One net is traced, or left out if it belongs to a dedicated network and those are. -/
def traceNet (skipDedicated : Bool) (n : Net) (stats : RoutingStats) :
    Phase RoutingGraph RoutingStats := do
  if n.dedicated && skipDedicated then
    Phase.report (.dedicatedNetSkipped n.name)
    return { stats with skipped := stats.skipped + 1 }
  else if n.trace.isEmpty then
    Phase.lift (fail (.emptyTrace n.name))
  else
    let (count, g) ← Phase.lift (walkTrace t net (← Phase.state) .start n.trace)
    Phase.put g
    return { stats with routed := stats.routed + 1, annotated := stats.annotated + count }

/-- The nets of a list are traced, numbered from `net` on. -/
def traceNets (skipDedicated : Bool) :
    NetId → RoutingStats → List Net → Phase RoutingGraph RoutingStats
  | _, stats, [] => return stats
  | net, stats, n :: rest => do
    let stats ← traceNet t net skipDedicated n stats
    traceNets skipDedicated (net + 1) stats rest

/-- All nets of a table are traced, after whatever was traced before is forgotten. -/
def traceAll (skipDedicated : Bool) : Phase RoutingGraph RoutingStats := do
  Phase.put (← Phase.state).unannotated
  let stats ← traceNets t skipDedicated 0 {} t.nets.toList
  Phase.report (.netsRouted stats.routed stats.annotated stats.skipped)
  return stats

end RoutingGraph

end RoutingFabric
