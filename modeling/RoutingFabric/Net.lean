import RoutingFabric.Outcome

/-!
# Nets

A fabric carries the nets that clustering left, each made from a net of the logical netlist.
A net of the fabric is routed over the routing graph, unless it belongs to a dedicated network
such as a clock.
-/

namespace RoutingFabric

/-- Net of the logical netlist. -/
structure LogicalNet where
  name : String
  deriving DecidableEq

/-- Net of the fabric. Consecutive nodes of its trace are a driver and the node it drives; after
a sink the trace goes on from a node it already holds. -/
structure Net where
  name : String
  dedicated : Bool := false
  logical : LogicalId
  trace : List NodeId := []
  deriving DecidableEq

/-- The nets of a fabric and the logical nets they were made from. -/
structure NetTable where
  nets : Array Net := #[]
  logicals : Array LogicalNet := #[]
  deriving DecidableEq

namespace NetTable

/-- The table with a logical net more, and the id of that. -/
def addLogical (t : NetTable) (name : String) : LogicalId × NetTable :=
  (t.logicals.size, { t with logicals := t.logicals.push { name } })

/-- The table with a net more, and the id of that. -/
def addNet (t : NetTable) (n : Net) : NetId × NetTable :=
  (t.nets.size, { t with nets := t.nets.push n })

/-- The logical net a net was made from. -/
def logicalOf (t : NetTable) (id : NetId) : Outcome LogicalId := do
  return (← entry t.nets id).logical

/-- The logical net that a pin or node is given together with a net. -/
def logicalOf? (t : NetTable) : Option NetId → Outcome (Option LogicalId)
  | none => .ok none
  | some id => do return some (← t.logicalOf id)

/-- The name of a net. -/
def nameOf (t : NetTable) (id : NetId) : String :=
  match t.nets[id]? with
  | some n => n.name
  | none => "<invalid net #" ++ Text.decimal id ++ ">"

/-- The name of a logical net. -/
def logicalName (t : NetTable) (id : LogicalId) : String :=
  match t.logicals[id]? with
  | some n => n.name
  | none => "<invalid logical net #" ++ Text.decimal id ++ ">"

end NetTable

end RoutingFabric
