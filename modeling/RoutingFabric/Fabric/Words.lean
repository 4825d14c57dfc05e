import RoutingFabric.Fabric.Run

/-!
# Runs that count in machine words

A run adds up what it does: the nodes that a net claims, the nets traced, the edges that a pin goes
past, the nodes and pins that a round changes, and the rounds. Here these numbers are kept in machine
words. Each count goes on from the one before, and a sum that leaves the word is a fault where it is
formed. All else is as in a run that counts without a bound.
-/

namespace RoutingFabric.InWords

/-! ### Tracing nets -/

section Tracing

variable (t : NetTable) (net : NetId)

/-- A node is entered by the trace of the net, after so many have been claimed. -/
def enter (g : RoutingGraph) (claimed : Nat) (at_ : RoutingGraph.TraceState) (id : NodeId) :
    Outcome (Nat × RoutingGraph) :=
  match at_ with
  | .start => do
    let (here, g) ← RoutingGraph.claim t net g id
    return (← word (claimed + here), g)
  | .from driver => do
    let (here, g) ← RoutingGraph.claim t net g id
    let claimed ← word (claimed + here)
    return (claimed, ← RoutingGraph.selectDriver t net g id driver)
  | .branch => do
    if (← g.node id).net = some net then return (claimed, g)
    else fail (.branchNotOnTree (t.nameOf net) (g.describe id))

/-- The nodes of a trace are entered, from the front, after so many have been claimed. -/
def walkTrace (g : RoutingGraph) (claimed : Nat) :
    RoutingGraph.TraceState → List NodeId → Outcome (Nat × RoutingGraph)
  | _, [] => return (claimed, g)
  | at_, id :: rest => do
    if id < g.size then
      let (claimed, g) ← enter t net g claimed at_ id
      let n ← g.node id
      let next := if n.kind = .sink then .branch else .from id
      walkTrace g claimed next rest
    else fail (.unknownTraceNode (t.nameOf net) id)

/-- One net is traced, or left out if it belongs to a dedicated network and those are. -/
def traceNet (skipDedicated : Bool) (n : Net) (stats : RoutingStats) :
    Phase RoutingGraph RoutingStats := do
  if n.dedicated && skipDedicated then
    Phase.report (.dedicatedNetSkipped n.name)
    let skipped ← Phase.lift (word (stats.skipped + 1))
    return { stats with skipped }
  else if n.trace.isEmpty then
    Phase.lift (fail (.emptyTrace n.name))
  else
    let (count, g) ← Phase.lift (walkTrace t net (← Phase.state) 0 .start n.trace)
    Phase.put g
    let annotated ← Phase.lift (word (stats.annotated + count))
    let routed ← Phase.lift (word (stats.routed + 1))
    return { stats with routed, annotated }

/-- The nets of a list are traced, numbered from `net` on. -/
def traceFrom (skipDedicated : Bool) :
    NetId → RoutingStats → List Net → Phase RoutingGraph RoutingStats
  | _, stats, [] => return stats
  | net, stats, n :: rest => do
    let stats ← traceNet t net skipDedicated n stats
    traceFrom skipDedicated (net + 1) stats rest

/-- All nets of a table are traced, after whatever was traced before is forgotten. -/
def traceAll (skipDedicated : Bool) : Phase RoutingGraph RoutingStats := do
  Phase.put (← Phase.state).unannotated
  let stats ← traceFrom t skipDedicated 0 {} t.nets.toList
  Phase.report (.netsRouted stats.routed stats.annotated stats.skipped)
  return stats

end Tracing

/-- The routed nets are traced. -/
def traceNets (skipDedicated : Bool) : Phase Fabric RoutingStats := do
  let f ← Phase.state
  Fabric.onGraph (traceAll f.nets skipDedicated)

/-! ### Selecting drivers -/

section Selection

open Cluster

variable (b : BlockGraph) (g : RoutingGraph) (t : NetTable) (c : Cluster)

/-- The pin of a frame makes a move, with the frames below it on the stack. -/
def apply (w : Walk) (f : Frame) (below : List Frame) : Move → Outcome Walk
  | .skip => do
    let cursor ← word (f.cursor + 1)
    return { w with stack := { f with cursor } :: below }
  | move => w.apply b c f below move

/-- Moves are made until the stack is empty. What is left of the number of moves allowed is
given back. -/
def drain : Nat → Walk → Outcome (Nat × Walk)
  | budget, w =>
    match w.stack with
    | [] => return (budget, w)
    | f :: below =>
      match budget with
      | 0 => fault .endless
      | budget + 1 => do
        let move ← f.move b g t c w
        let w ← apply b c w f below move
        drain budget w

/-- The walk deals with a pin, if it has not yet. -/
def visitPin (budget : Nat) (w : Walk) (id : PinId) : Outcome (Nat × Walk) := do
  if (← entry w.visit id) = .unvisited then
    let w ← w.push b c id
    drain b g t c budget w
  else return (budget, w)

/-- The states of all pins after the walk, which may make a number of moves. -/
def selectWithin (budget : Nat) : Outcome (Array PinState) := do
  let (_, w) ← (List.range b.pins.size).foldlM
    (fun (budget, w) id => visitPin b g t c budget w id) (budget, Walk.start b.pins.size)
  return w.pins

/-- Every pin selects its driver, and the order of propagation is found. -/
def selectLocalDrivers : Phase Cluster Unit := do
  let c ← Phase.state
  let pins ← Phase.lift (selectWithin b g t c (moveBound b))
  let order ← Phase.lift (propagationOrder b c pins)
  let locals := { c.locals with pins, order }
  Phase.put { c with locals }
  let selected ← Phase.lift (word locals.drivenCount)
  let openPins ← Phase.lift (word locals.openCount)
  Phase.report (.driversSelected c.name selected openPins)

end Selection

/-! ### Propagating nets in clusters -/

/-- The pins of a list take their nets, from the front, after so many have been changed. -/
def propagatePins (b : BlockGraph) (g : RoutingGraph) (t : NetTable) (c : Cluster)
    (changed : Nat) : List PinId → Outcome (Nat × Cluster)
  | [] => return (changed, c)
  | id :: rest => do
    let (here, c) ← Cluster.propagatePin b g t c id
    let changed ← word (changed + here)
    propagatePins b g t c changed rest

/-- All pins take their nets. Counted are the inputs that are changed. -/
def propagateNets (b : BlockGraph) (g : RoutingGraph) (t : NetTable) (c : Cluster) :
    Outcome (Nat × Cluster) :=
  propagatePins b g t c 0 c.locals.order

/-- The drivers of a cluster are selected and its nets propagated. -/
def annotateCluster (id : Nat) : Phase Fabric Unit := do
  let f ← Phase.state
  let c ← Phase.lift (entry f.clusters id)
  let b ← Phase.lift (f.blockGraphOf c)
  Fabric.onCluster id do
    selectLocalDrivers b f.graph f.nets
    let (_, c) ← Phase.lift (propagateNets b f.graph f.nets (← Phase.state))
    Phase.put c

/-- The drivers of all clusters are selected and their nets propagated. -/
def annotateClusters : Phase Fabric Unit := do
  Phase.each annotateCluster (← Phase.state).clusterIds

/-- Nets are propagated in a cluster. Counted are the inputs that are changed. -/
def propagateCluster (f : Fabric) (id : Nat) : Outcome (Nat × Fabric) := do
  let c ← entry f.clusters id
  let b ← f.blockGraphOf c
  let (count, c) ← propagateNets b f.graph f.nets c
  return (count, { f with clusters := f.clusters.modify id fun _ => c })

/-- Nets are propagated in the clusters of a list, after so many inputs have been changed. -/
def propagateClusters (f : Fabric) (changed : Nat) : List Nat → Outcome (Nat × Fabric)
  | [] => return (changed, f)
  | id :: rest => do
    let (here, f) ← propagateCluster f id
    let changed ← word (changed + here)
    propagateClusters f changed rest

/-- Nets are propagated in all clusters. Counted are the inputs that are changed. -/
def propagateAll (f : Fabric) : Outcome (Nat × Fabric) := propagateClusters f 0 f.clusterIds

/-! ### Moving outputs to the graph -/

/-- Nodes are given a logical net, after so many have been changed. -/
def giveLogical (g : RoutingGraph) (logical : Option LogicalId) (updated : Nat) :
    List NodeId → Outcome (Nat × RoutingGraph)
  | [] => return (updated, g)
  | id :: rest => do
    let n ← g.node id
    let g ← g.modify id ({ · with logical })
    let updated ← word (updated + if n.logical = logical then 0 else 1)
    giveLogical g logical updated rest

/-- A logical net is given to every node reached over links from the nodes of a list, after so many
have been changed. The bound on the number of nodes followed is as where nothing is counted. -/
def forwardFrom (logical : Option LogicalId) :
    Nat → Nat → List NodeId → RoutingGraph → Outcome (Nat × RoutingGraph)
  | _, updated, [], g => return (updated, g)
  | 0, _, _ :: _, _ => fault .endless
  | more + 1, updated, id :: pending, g => do
    let reached ← g.selectedFanout id
    let (updated, g) ← giveLogical g logical updated reached
    forwardFrom logical more updated (reached.reverse ++ pending) g

/-- The logical net of a node is given to every node reached from it. -/
def forwardLogical (g : RoutingGraph) (id : NodeId) : Outcome (Nat × RoutingGraph) := do
  let n ← g.node id
  forwardFrom n.logical g.size 0 [id] g

/-- The logical net of an output is moved to its node and forwarded from there, after so many nodes
have been changed. -/
def exportPin (b : BlockGraph) (c : Cluster) (g : RoutingGraph) (updated : Nat) (pin : PinId)
    (node : NodeId) : Outcome (Nat × RoutingGraph) := do
  if (← b.pin pin).kind.isInput then return (updated, g)
  else
    match (← c.locals.pin pin).logical with
    | none => return (updated, g)
    | some logical =>
      let (updated, g) ← giveLogical g (some logical) updated [node]
      let (forwarded, g) ← forwardLogical g node
      return (← word (updated + forwarded), g)

/-- The logical nets of bound outputs are moved to the graph, after so many nodes have been
changed. -/
def exportPins (b : BlockGraph) (c : Cluster) (g : RoutingGraph) (updated : Nat) :
    List (PinId × NodeId) → Outcome (Nat × RoutingGraph)
  | [] => return (updated, g)
  | (pin, node) :: rest => do
    let (updated, g) ← exportPin b c g updated pin node
    exportPins b c g updated rest

/-- The logical nets of the outputs of clusters are moved to the graph, after so many nodes have
been changed. -/
def exportClusters (f : Fabric) (g : RoutingGraph) (updated : Nat) :
    List Cluster → Outcome (Nat × RoutingGraph)
  | [] => return (updated, g)
  | c :: rest => do
    let b ← f.blockGraphOf c
    let (updated, g) ← exportPins b c g updated c.locals.bindings
    exportClusters f g updated rest

/-- The logical nets of all cluster outputs are moved to the graph. Counted are the nodes that
are changed. -/
def exportOutputs (f : Fabric) : Outcome (Nat × Fabric) := do
  let (count, graph) ← exportClusters f f.graph 0 f.clusters.toList
  return (count, { f with graph })

/-! ### Rounds -/

/-- One round. Counted are the inputs of clusters that are changed. -/
def parasiticRound : Phase Fabric Nat := do
  let (nodes, f) ← Phase.lift (exportOutputs (← Phase.state))
  Phase.put f
  let (pins, f) ← Phase.lift (propagateAll f)
  Phase.put f
  Phase.report (.roundDone nodes pins)
  return pins

/-- At most so many rounds more, after `done` of them. -/
def roundsFrom (done : Nat) : Nat → Phase Fabric Nat
  | 0 => do
    let pending ← Phase.lift (← Phase.state).changingPins
    Phase.report (.diverged pending)
    Phase.lift (fail (.propagationDiverged done pending))
  | more + 1 => do
    let count ← parasiticRound
    let done ← Phase.lift (word (done + 1))
    if count = 0 then
      Phase.report (.settled done)
      return done
    else roundsFrom done more

/-- Rounds until no input of a cluster is changed, which has to be after `most` rounds at the
latest. -/
def propagateParasitic (most : Nat) : Phase Fabric Nat := roundsFrom 0 most

/-! ### Runs -/

/-- The number of open pins of clusters, after so many of others. -/
def openPins (sum : Nat) : List Cluster → Outcome Nat
  | [] => return sum
  | c :: rest => do
    let sum ← word (sum + c.locals.openCount)
    openPins sum rest

/-- The fabric is annotated. -/
def annotate (o : Options) : Phase Fabric Report := do
  let routing ← traceNets o.skipDedicated
  annotateClusters
  let limit ← Phase.lift (Fabric.roundLimit o (← Phase.state))
  let rounds ← propagateParasitic limit
  let f ← Phase.state
  let openPins ← Phase.lift (openPins 0 f.clusters.toList)
  let nodes ← Phase.lift f.parasiticNodes
  let report : Report :=
    { routing, clusters := f.clusters.size, openPins, rounds, parasiticNodes := nodes.length }
  Phase.report (.runDone report.clusters report.parasiticNodes report.rounds)
  return report

end RoutingFabric.InWords
