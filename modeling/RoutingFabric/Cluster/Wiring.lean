import RoutingFabric.Cluster.Basic
import RoutingFabric.Net
import RoutingFabric.RoutingGraph.Basic

/-!
# Wiring of a cluster

What the modes in use and the clustering of a cluster say about a single pin: the edges that
may drive it, the input it forwards, and the net it is known to carry before any driver is
selected.
-/

namespace RoutingFabric.Cluster

/-- An edge that may drive a pin, with the pin it comes from. -/
structure Input where
  edge : EdgeId
  source : PinId
  deriving DecidableEq

variable (b : BlockGraph) (g : RoutingGraph) (c : Cluster)

/-- The edges that may drive a pin in the modes in use. -/
def inputsOf (id : PinId) : Outcome (List Input) := do
  (← b.activeInputs c.modes id).mapM fun e => return ⟨e, (← b.edge e).source⟩

/-- The input that a pin forwards, which only an output of a primitive does. -/
def forwarded (id : PinId) : Outcome (Option PinId) :=
  match c.routeThrough id with
  | none => return none
  | some input => do return if ← b.isPrimitiveOutput id then some input else none

/-- The net a pin is known to carry: the one clustering assigned to it, or for an input of the
cluster the one routed to its node. -/
def knownNet (id : PinId) : Outcome (Option NetId) :=
  match c.pinNet id with
  | some net => return some net
  | none => do
    if ← b.isClusterInput id then
      match c.locals.nodeOf id with
      | some node => return (← g.node node).net
      | none => return none
    else return none

/-- Whether a pin that no edge may drive is open: nothing outside of the cluster and no
primitive drives it either. -/
def isUndriven (id : PinId) : Outcome Bool := do
  if ← b.isClusterInput id then return false
  else return !(← b.isPrimitiveOutput id)

/-- The pin whose net a pin copies: its selected driver, or the input that it forwards. -/
def dependency (pins : Array PinState) (id : PinId) : Outcome (Option PinId) := do
  match (← entry pins id).selected with
  | some d => return some d.pin
  | none => forwarded b c id

end RoutingFabric.Cluster
