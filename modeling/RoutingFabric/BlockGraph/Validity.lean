import RoutingFabric.BlockGraph.Basic

/-!
# Valid block graphs

A block graph read from a snapshot is usable when the ids it stores point into it, and when all
edges that reach a pin in one mode belong to one interconnect. Each pin then has one multiplexer
in each mode.
-/

namespace RoutingFabric.BlockGraph

/-- Nothing if the condition holds, otherwise a problem. -/
def demand (p : Prop) [Decidable p] (otherwise : Problem) : Outcome Unit :=
  if p then .ok () else fail otherwise

/-- The ids of an edge point into the graph. -/
def checkEdge (b : BlockGraph) (id : EdgeId) (e : Edge) : Outcome Unit := do
  demand (e.source < b.pins.size) (.danglingReference b.name .edge id .pin e.source)
  demand (e.target < b.pins.size) (.danglingReference b.name .edge id .pin e.target)
  demand (e.interconnect < b.interconnects.size)
    (.danglingReference b.name .edge id .interconnect e.interconnect)

/-- The ids of a pin point into the graph. -/
def checkPin (b : BlockGraph) (id : PinId) (p : Pin) : Outcome Unit := do
  demand (p.block < b.blocks.size) (.danglingReference b.name .pin id .block p.block)
  (p.inputs ++ p.outputs).forM fun e =>
    demand (e < b.edges.size) (.danglingReference b.name .pin id .edge e)

/-- The parent of a block is in the graph. -/
def checkBlock (b : BlockGraph) (id : BlockId) (block : Block) : Outcome Unit :=
  match block.parent with
  | none => .ok ()
  | some (parent, _) =>
    demand (parent < b.blocks.size) (.danglingReference b.name .block id .block parent)

/-- The mode of an interconnect is in the graph. -/
def checkInterconnect (b : BlockGraph) (id : InterconnectId) (ic : Interconnect) :
    Outcome Unit :=
  match b.blocks[ic.owner]? with
  | some owner =>
    demand (ic.mode < owner.modes.length)
      (.danglingReference b.name .interconnect id .mode ic.mode)
  | none => fail (.danglingReference b.name .interconnect id .block ic.owner)

/-- The ids stored in edges, pins, blocks and interconnects point into the graph. -/
def checkReferences (b : BlockGraph) : Outcome Unit := do
  b.edges.toList.zipIdx.forM fun (e, id) => b.checkEdge id e
  b.pins.toList.zipIdx.forM fun (p, id) => b.checkPin id p
  b.blocks.toList.zipIdx.forM fun (block, id) => b.checkBlock id block
  b.interconnects.toList.zipIdx.forM fun (ic, id) => b.checkInterconnect id ic

/-- The interconnect seen first of each mode of each block. -/
abbrev Seen := List ((BlockId × Nat) × InterconnectId)

/-- The edges of a list belong to the interconnects seen first of their modes. -/
def checkMixed (b : BlockGraph) (pin : PinId) : Seen → List EdgeId → Outcome Unit
  | _, [] => .ok ()
  | seen, e :: rest => do
    let id := (← b.edge e).interconnect
    let ic ← b.interconnect id
    match seen.lookup (ic.owner, ic.mode) with
    | some first =>
      if first = id then checkMixed b pin seen rest
      else do
        let pinName ← b.pinName pin
        fail (.mixedInterconnects b.name pinName (← b.interconnect first).name ic.name)
    | none => checkMixed b pin (((ic.owner, ic.mode), id) :: seen) rest

/-- The graph is usable. -/
def validate (b : BlockGraph) : Outcome Unit := do
  b.checkReferences
  b.pins.toList.zipIdx.forM fun (p, id) => b.checkMixed id [] p.inputs

end RoutingFabric.BlockGraph
