import RoutingFabric.BlockGraph.Basic
import RoutingFabric.Side

/-!
# Clusters

A cluster is a placed instance of a block graph, together with what clustering decided for it:
the mode each of its blocks is used in, the nets assigned to its pins, and the outputs of
primitives that only forward one of the inputs. Derived from these are the state of every pin,
an order of the pins in which nets are propagated, and the nodes of the routing graph that the
boundary pins are bound to.
-/

namespace RoutingFabric

namespace Cluster

/-- The driver a pin selects: the driving pin, the edge from it, the place of that edge among
the active edges that reach the pin, and the number of these. -/
structure LocalDriver where
  pin : PinId
  edge : EdgeId
  path : Nat
  fanIn : Nat
  deriving DecidableEq

/-- State of a pin. A pin is open when nothing drives it in the modes in use. It is changed when
the last propagation gave it another logical net. -/
structure PinState where
  selected : Option LocalDriver := none
  net : Option NetId := none
  logical : Option LogicalId := none
  isOpen : Bool := false
  changed : Bool := false
  deriving DecidableEq

/-- All that is derived for a cluster. -/
structure Local where
  pins : Array PinState := #[]
  order : List PinId := []
  bindings : List (PinId × NodeId) := []
  deriving DecidableEq

namespace Local

/-- Nothing is known yet of so many pins. -/
def blank (pins : Nat) : Local := { pins := Array.replicate pins {} }

/-- The state of a pin. -/
def pin (l : Local) (id : PinId) : Outcome PinState := entry l.pins id

/-- The node a boundary pin is bound to. -/
def nodeOf (l : Local) (id : PinId) : Option NodeId := l.bindings.lookup id

/-- The pins that the last propagation changed. -/
def changedPins (l : Local) : List PinId :=
  (l.pins.toList.zipIdx.filter (·.1.changed)).map (·.2)

/-- The number of open pins. -/
def openCount (l : Local) : Nat := l.pins.toList.countP (·.isOpen)

/-- The number of pins with a selected driver. -/
def drivenCount (l : Local) : Nat := l.pins.toList.countP (·.selected.isSome)

end Local

end Cluster

open Cluster in
/-- A cluster. -/
structure Cluster where
  name : String
  blockGraph : Nat
  place : Tile
  modes : Array (Option Nat) := #[]
  pinNets : Array (Option NetId) := #[]
  routeThroughs : List (PinId × PinId) := []
  locals : Local := {}
  deriving DecidableEq

namespace Cluster

/-- A cluster of a type, without any modes, nets and forwarding outputs. -/
def ofType (name : String) (blockGraph : Nat) (b : BlockGraph) (place : Tile) : Cluster where
  name
  blockGraph
  place
  modes := Array.replicate b.blocks.size none
  pinNets := Array.replicate b.pins.size none
  locals := Local.blank b.pins.size

/-- The cluster without all that is derived. -/
def bare (c : Cluster) : Cluster := { c with locals := {} }

/-- The cluster with a mode chosen for a block. -/
def setMode (c : Cluster) (block : BlockId) (mode : Nat) : Outcome Cluster := do
  return { c with modes := ← alter c.modes block fun _ => some mode }

/-- The cluster with a net assigned to a pin. -/
def setPinNet (c : Cluster) (pin : PinId) (net : NetId) : Outcome Cluster := do
  return { c with pinNets := ← alter c.pinNets pin fun _ => some net }

/-- The cluster with an output more that forwards an input. -/
def addRouteThrough (c : Cluster) (output input : PinId) : Cluster :=
  { c with routeThroughs := c.routeThroughs ++ [(output, input)] }

/-- The net assigned to a pin. -/
def pinNet (c : Cluster) (id : PinId) : Option NetId := c.pinNets[id]?.join

/-- The input that an output forwards. -/
def routeThrough (c : Cluster) (output : PinId) : Option PinId := c.routeThroughs.lookup output

end Cluster

end RoutingFabric
