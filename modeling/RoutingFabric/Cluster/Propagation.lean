import RoutingFabric.Cluster.Wiring

/-!
# Propagation of nets in a cluster

Once drivers are selected, nets move along them in the order of propagation. Inputs of the
cluster take the nets of the routing nodes they are bound to, and outputs of primitives those
that clustering assigned to them, or the logical net of the input that they forward. A pin that
is an input of its block is changed when its logical net is not the one it carried before.
-/

namespace RoutingFabric.Cluster

variable (b : BlockGraph) (g : RoutingGraph) (t : NetTable)

/-- The net and the logical net that clustering assigns to a pin. -/
def assigned (net : Option NetId) : Outcome (Option NetId × Option LogicalId) := do
  return (net, ← t.logicalOf? net)

/-- The net and the logical net that a pin takes. -/
def incoming (c : Cluster) (id : PinId) : Outcome (Option NetId × Option LogicalId) := do
  let net := c.pinNet id
  match (← c.locals.pin id).selected with
  | some d =>
    let source ← c.locals.pin d.pin
    return (net <|> source.net, source.logical)
  | none =>
    if ← b.isClusterInput id then
      match c.locals.nodeOf id with
      | some node =>
        let n ← g.node node
        if n.net.isSome then return (n.net, n.logical) else assigned t net
      | none => assigned t net
    else
      match ← forwarded b c id with
      | some input => return (net, (← c.locals.pin input).logical)
      | none => assigned t net

/-- A pin takes its nets. Counted is whether it is changed. -/
def propagatePin (c : Cluster) (id : PinId) : Outcome (Nat × Cluster) := do
  let (net, logical) ← incoming b g t c id
  let p ← b.pin id
  let s ← c.locals.pin id
  let changed := p.kind.isInput && s.logical != logical
  let pins ← alter c.locals.pins id fun s => { s with net, logical, changed }
  return (if changed then 1 else 0, { c with locals := { c.locals with pins } })

/-- The pins of a list take their nets, from the front. Counted are those that are changed. -/
def propagatePins (c : Cluster) : List PinId → Outcome (Nat × Cluster)
  | [] => return (0, c)
  | id :: rest => do
    let (here, c) ← propagatePin b g t c id
    let (beyond, c) ← propagatePins c rest
    return (here + beyond, c)

/-- All pins take their nets. Counted are the inputs that are changed. -/
def propagateNets (c : Cluster) : Outcome (Nat × Cluster) :=
  propagatePins b g t c c.locals.order

end RoutingFabric.Cluster
