import RoutingFabric.Cluster.Wiring

/-!
# Order of propagation

Nets are propagated in an order in which every pin comes after the pin whose net it copies.
Since a pin copies from at most one other, the order is found by following chains of such pins
and entering each chain from its far end.
-/

namespace RoutingFabric.Cluster

/-- How far a pin has been dealt with. -/
inductive Visit where
  | unvisited
  | visiting
  | done
  deriving DecidableEq

variable (b : BlockGraph) (c : Cluster) (pins : Array PinState)

/-- The chain of pins from one on, up to a pin that has been dealt with, is put in front of
those found before. The first argument bounds its length. -/
def chain : Nat → Array Visit → List PinId → Option PinId → Outcome (Array Visit × List PinId)
  | _, visit, found, none => return (visit, found)
  | 0, _, _, some _ => fault .endless
  | more + 1, visit, found, some id => do
    match ← entry visit id with
    | .done => return (visit, found)
    | .visiting => fail (.localDriverCycle c.name (← b.pinName id))
    | .unvisited =>
      let next ← dependency b c pins id
      chain more (visit.modify id fun _ => .visiting) (id :: found) next

/-- The pins are marked as dealt with. -/
def markDone (visit : Array Visit) (ids : List PinId) : Array Visit :=
  ids.foldl (fun visit id => visit.modify id fun _ => .done) visit

/-- The order of propagation of a list of pins and of all they depend on, less those dealt with
before. -/
def orderFrom : Array Visit → List PinId → Outcome (List PinId)
  | _, [] => return []
  | visit, start :: rest => do
    let (visit, found) ← chain b c pins (pins.size + 1) visit [] (some start)
    return found ++ (← orderFrom (markDone visit found) rest)

/-- The order of propagation of all pins. -/
def propagationOrder : Outcome (List PinId) :=
  orderFrom b c pins (Array.replicate pins.size .unvisited) (List.range pins.size)

end RoutingFabric.Cluster
