import RoutingFabric.RoutingGraph.Basic

/-!
# Selected links

A node that selects a driver makes a link from that driver to itself. The links out of a node
are found by looking along its edges. A logical net is forwarded over links: every node reached
from a node takes the logical net of that node.
-/

namespace RoutingFabric.RoutingGraph

/-- The nodes that selected a node as their driver, each with the edge they are driven by. -/
def selectedFanout (g : RoutingGraph) (id : NodeId) : Outcome (List NodeId) := do
  let n ← g.node id
  let reached ← n.edges.zipIdx.filterMapM fun (e, place) => do
    let sink ← g.node e.sink
    return match sink.selected with
      | some s => if s.driver = id ∧ s.edge = place then some e.sink else none
      | none => none
  return reached

/-- The number of nodes that do not yet carry a logical net, and the graph in which all of them
do. -/
def giveLogical (g : RoutingGraph) (logical : Option LogicalId) :
    List NodeId → Outcome (Nat × RoutingGraph)
  | [] => .ok (0, g)
  | id :: rest => do
    let n ← g.node id
    let g ← g.modify id ({ · with logical })
    let (count, g) ← giveLogical g logical rest
    return ((if n.logical = logical then 0 else 1) + count, g)

/-- A logical net is given to every node reached over links from the nodes of a list, the last
node reached being the first to be followed. Counted are the nodes that did not carry it. The
first argument bounds the number of nodes followed. -/
def forwardFrom (logical : Option LogicalId) :
    Nat → List NodeId → RoutingGraph → Outcome (Nat × RoutingGraph)
  | _, [], g => .ok (0, g)
  | 0, _ :: _, _ => fault .endless
  | more + 1, id :: pending, g => do
    let reached ← g.selectedFanout id
    let (here, g) ← g.giveLogical logical reached
    let (beyond, g) ← forwardFrom logical more (reached.reverse ++ pending) g
    return (here + beyond, g)

/-- The logical net of a node is given to every node reached from it. Each node has one driver,
so that unless the node is reached from itself no node is followed twice. -/
def forwardLogical (g : RoutingGraph) (id : NodeId) : Outcome (Nat × RoutingGraph) := do
  let n ← g.node id
  forwardFrom n.logical g.size [id] g

end RoutingFabric.RoutingGraph
