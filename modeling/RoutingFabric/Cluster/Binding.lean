import RoutingFabric.Cluster.Basic
import RoutingFabric.Phase
import RoutingFabric.RoutingGraph.Lookup

/-!
# Preparing a cluster

Before a cluster is annotated its tables are sized to its block graph, the ids that clustering
stored are checked, and its boundary pins are bound to the pins of the routing graph at its
place that have their numbers.
-/

namespace RoutingFabric

/-- The table cut or filled up to so many entries. -/
def resized {α : Type} (xs : Array (Option α)) (n : Nat) : Array (Option α) :=
  (xs.toList.take n ++ List.replicate (n - xs.size) none).toArray

namespace Cluster

/-- The cluster with its tables sized to its block graph. -/
def fitted (c : Cluster) (b : BlockGraph) : Cluster :=
  { c with modes := resized c.modes b.blocks.size, pinNets := resized c.pinNets b.pins.size }

/-- The pins of forwarding outputs and the nets of pins exist. -/
def checkIndices (c : Cluster) (b : BlockGraph) (nets : Nat) : Outcome Unit := do
  (c.routeThroughs.flatMap fun (output, input) => [output, input]).forM fun pin =>
    if b.pins.size ≤ pin then fail (.invalidClusterIndex c.name .routeThroughPin pin) else .ok ()
  (c.pinNets.toList.filterMap id).forM fun net =>
    if nets ≤ net then fail (.invalidClusterIndex c.name .net net) else .ok ()

/-- The modes in use exist. -/
def checkModes (c : Cluster) (b : BlockGraph) : Outcome Unit :=
  c.modes.toList.zipIdx.forM fun (mode, id) => do
    match mode with
    | none => return ()
    | some mode =>
      if (← b.block id).modes.length ≤ mode then
        fail (.invalidMode c.name (← b.blockPath id) mode)

/-- The node of the routing graph that a boundary pin is bound to. A pin without a number is
bound to none. -/
def bind (c : Cluster) (b : BlockGraph) (g : RoutingGraph) (id : PinId) :
    Outcome (Option (PinId × NodeId)) := do
  let p ← b.pin id
  match p.boundary with
  | none => return none
  | some number =>
    match g.findPin (if p.kind.isInput then .inPin else .outPin) c.place number with
    | some node => return some (id, node)
    | none => fail (.unboundClusterPin c.name b.name (← b.pinName id))

/-- The bindings of all boundary pins. -/
def bindings (c : Cluster) (b : BlockGraph) (g : RoutingGraph) :
    Outcome (List (PinId × NodeId)) := do
  (← b.block BlockGraph.root).pins.filterMapM (c.bind b g)

/-- The cluster is prepared for annotation. -/
def prepare (b : BlockGraph) (g : RoutingGraph) (nets : Nat) : Phase Cluster Unit := do
  let c := (← Phase.state).fitted b
  Phase.put c
  Phase.lift (c.checkIndices b nets)
  Phase.lift (c.checkModes b)
  let bindings ← Phase.lift (c.bindings b g)
  Phase.put { c with locals := { Local.blank b.pins.size with bindings } }

end Cluster

end RoutingFabric
