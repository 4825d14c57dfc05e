import RoutingFabric.Cluster.Propagation
import RoutingFabric.Cluster.Selection
import RoutingFabric.Fabric.Basic
import RoutingFabric.RoutingGraph.Selected

/-!
# Parasitic nets

A logical net that clustering absorbed into a cluster still appears on the routing where the
cluster forwards it. It is found in rounds. Each round moves the logical nets of the cluster
outputs to their routing nodes and over the links selected there, and then propagates nets in
every cluster. The rounds end when no input of a cluster is changed any more; inputs that keep
changing lie on a combinational loop through clusters. Counts are natural numbers without a bound;
those of `RoutingFabric.InWords` are kept in machine words.
-/

namespace RoutingFabric.Fabric

/-! ### Clusters -/

/-- The drivers of a cluster are selected and its nets propagated. -/
def annotateCluster (id : Nat) : Phase Fabric Unit := do
  let f ← Phase.state
  let c ← Phase.lift (entry f.clusters id)
  let b ← Phase.lift (f.blockGraphOf c)
  onCluster id do
    Cluster.selectLocalDrivers b f.graph f.nets
    let (_, c) ← Phase.lift (Cluster.propagateNets b f.graph f.nets (← Phase.state))
    Phase.put c

/-- The drivers of all clusters are selected and their nets propagated. -/
def annotateClusters : Phase Fabric Unit := do
  Phase.each annotateCluster (← Phase.state).clusterIds

/-- Nets are propagated in a cluster. Counted are the inputs that are changed. -/
def propagateCluster (f : Fabric) (id : Nat) : Outcome (Nat × Fabric) := do
  let c ← entry f.clusters id
  let b ← f.blockGraphOf c
  let (count, c) ← Cluster.propagateNets b f.graph f.nets c
  return (count, { f with clusters := f.clusters.modify id fun _ => c })

/-- Nets are propagated in the clusters of a list. Counted are the inputs that are changed. -/
def propagateClusters (f : Fabric) : List Nat → Outcome (Nat × Fabric)
  | [] => return (0, f)
  | id :: rest => do
    let (here, f) ← propagateCluster f id
    let (beyond, f) ← propagateClusters f rest
    return (here + beyond, f)

/-- Nets are propagated in all clusters. Counted are the inputs that are changed. -/
def propagateAll (f : Fabric) : Outcome (Nat × Fabric) := propagateClusters f f.clusterIds

/-! ### Cluster outputs -/

/-- The logical net of an output is moved to its node and forwarded from there. An output that
carries none leaves the graph alone, as does an input. Counted are the nodes that are
changed. -/
def exportPin (b : BlockGraph) (c : Cluster) (g : RoutingGraph) (pin : PinId) (node : NodeId) :
    Outcome (Nat × RoutingGraph) := do
  if (← b.pin pin).kind.isInput then return (0, g)
  else
    match (← c.locals.pin pin).logical with
    | none => return (0, g)
    | some logical =>
      let (here, g) ← g.giveLogical (some logical) [node]
      let (beyond, g) ← g.forwardLogical node
      return (here + beyond, g)

/-- The logical nets of bound outputs are moved to the graph. -/
def exportPins (b : BlockGraph) (c : Cluster) (g : RoutingGraph) :
    List (PinId × NodeId) → Outcome (Nat × RoutingGraph)
  | [] => return (0, g)
  | (pin, node) :: rest => do
    let (here, g) ← exportPin b c g pin node
    let (beyond, g) ← exportPins b c g rest
    return (here + beyond, g)

/-- The logical nets of the outputs of clusters are moved to the graph. -/
def exportClusters (f : Fabric) (g : RoutingGraph) : List Cluster → Outcome (Nat × RoutingGraph)
  | [] => return (0, g)
  | c :: rest => do
    let b ← f.blockGraphOf c
    let (here, g) ← exportPins b c g c.locals.bindings
    let (beyond, g) ← exportClusters f g rest
    return (here + beyond, g)

/-- The logical nets of all cluster outputs are moved to the graph. Counted are the nodes that
are changed. -/
def exportOutputs (f : Fabric) : Outcome (Nat × Fabric) := do
  let (count, graph) ← exportClusters f f.graph f.clusters.toList
  return (count, { f with graph })

/-! ### Rounds -/

/-- One round. Counted are the inputs of clusters that are changed. -/
def parasiticRound : Phase Fabric Nat := do
  let (nodes, f) ← Phase.lift (← Phase.state).exportOutputs
  Phase.put f
  let (pins, f) ← Phase.lift f.propagateAll
  Phase.put f
  Phase.report (.roundDone nodes pins)
  return pins

/-- The pins of a cluster that the last round changed, by name. -/
def changingPinsOf (f : Fabric) (c : Cluster) : Outcome (List String) := do
  let b ← f.blockGraphOf c
  c.locals.changedPins.mapM fun id => return c.name ++ ": " ++ (← b.pinName id)

/-- The pins that the last round changed, by name. -/
def changingPins (f : Fabric) : Outcome (List String) := do
  return (← f.clusters.toList.mapM f.changingPinsOf).flatten

/-- At most so many rounds more, after `done` of them. -/
def roundsFrom (done : Nat) : Nat → Phase Fabric Nat
  | 0 => do
    let pending ← Phase.lift (← Phase.state).changingPins
    Phase.report (.diverged pending)
    Phase.lift (fail (.propagationDiverged done pending))
  | more + 1 => do
    if (← parasiticRound) = 0 then
      Phase.report (.settled (done + 1))
      return done + 1
    else roundsFrom (done + 1) more

/-- Rounds until no input of a cluster is changed, which has to be after `most` rounds at the
latest. Given is the number of rounds. -/
def propagateParasitic (most : Nat) : Phase Fabric Nat := roundsFrom 0 most

/-- The number of rounds allowed where none is asked for: one for each cluster of a chain, and
one for each level of the hierarchy. -/
def defaultRounds (f : Fabric) : Outcome Nat := word (f.clusters.size + f.maxClusterDepth + 2)

/-- Whether a node carries another logical net than the one its net was made from. -/
def isParasitic (f : Fabric) (n : RoutingGraph.Node) : Outcome Bool := do
  let routed ← f.nets.logicalOf? n.net
  return n.logical.isSome && n.logical != routed

/-- The nodes that carry another logical net than the one their net was made from. -/
def parasiticNodes (f : Fabric) : Outcome (List NodeId) :=
  f.graph.ids.filterMapM fun id => do
    return if ← f.isParasitic (← f.graph.node id) then some id else none

end RoutingFabric.Fabric
