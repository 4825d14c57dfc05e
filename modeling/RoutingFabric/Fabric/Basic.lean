import RoutingFabric.BlockGraph.Validity
import RoutingFabric.Cluster.Binding
import RoutingFabric.Net
import RoutingFabric.RoutingGraph.Drivers
import RoutingFabric.RoutingGraph.Lookup

/-!
# Fabrics

A fabric is a device with a placed and routed design on it: the grid, the routing graph, the
types of clusters, the clusters, and the nets. Preparing a fabric checks it and derives
everything that does not depend on the routed design.
-/

namespace RoutingFabric

/-- The grid of blocks. -/
structure Grid where
  width : Nat
  height : Nat
  deriving DecidableEq

namespace Grid

/-- The last column. -/
def lastX (g : Grid) : Nat := g.width - 1

/-- The last row. -/
def lastY (g : Grid) : Nat := g.height - 1

end Grid

/-- A fabric. -/
structure Fabric where
  grid : Grid
  graph : RoutingGraph := {}
  blockGraphs : Array BlockGraph := #[]
  clusters : Array Cluster := #[]
  nets : NetTable := {}

namespace Fabric

/-- The fabric without all that is derived, which is what a snapshot holds. -/
def bare (f : Fabric) : Fabric :=
  { f with graph := f.graph.bare, clusters := f.clusters.map Cluster.bare }

/-- The fabric with a cluster type more, and the id of that. -/
def addBlockGraph (f : Fabric) (b : BlockGraph) : Nat × Fabric :=
  (f.blockGraphs.size, { f with blockGraphs := f.blockGraphs.push b })

/-- The fabric with a cluster more, and the id of that. -/
def addCluster (f : Fabric) (c : Cluster) : Nat × Fabric :=
  (f.clusters.size, { f with clusters := f.clusters.push c })

/-- The type of a cluster. -/
def blockGraphOf (f : Fabric) (c : Cluster) : Outcome BlockGraph :=
  entry f.blockGraphs c.blockGraph

/-- The depth of the deepest cluster type. -/
def maxClusterDepth (f : Fabric) : Nat :=
  (f.blockGraphs.toList.map (·.maxDepth)).foldl max 0

/-! ### Phases on parts -/

/-- A phase on the routing graph. -/
def onGraph {α : Type} (p : Phase RoutingGraph α) : Phase Fabric α :=
  Phase.focus Fabric.graph (fun f graph => { f with graph }) p

/-- A phase on a cluster. -/
def onCluster {α : Type} (id : Nat) (p : Phase Cluster α) : Phase Fabric α := do
  let c ← Phase.lift (entry (← Phase.state).clusters id)
  Phase.focus (fun _ => c) (fun f c => { f with clusters := f.clusters.modify id fun _ => c }) p

/-- The ids of the clusters. -/
def clusterIds (f : Fabric) : List Nat := List.range f.clusters.size

/-! ### Preparation -/

/-- One cluster is prepared. -/
def prepareCluster (id : Nat) : Phase Fabric Unit := do
  let f ← Phase.state
  let c ← Phase.lift (entry f.clusters id)
  match f.blockGraphs[c.blockGraph]? with
  | some b => onCluster id (Cluster.prepare b f.graph f.nets.nets.size)
  | none => Phase.lift (fail (.invalidClusterIndex c.name .blockGraph c.blockGraph))

/-- The fabric is checked, and everything is derived that the routed design does not change. -/
def prepare : Phase Fabric Unit := do
  onGraph do
    Phase.put (← Phase.state).buildLookup
    RoutingGraph.buildDriverIndex
    RoutingGraph.identifyDriverSwitches
  let f ← Phase.state
  Phase.lift (f.blockGraphs.toList.forM fun b => b.validate)
  Phase.each prepareCluster f.clusterIds
  Phase.report (.prepared f.grid.width f.grid.height f.graph.size f.clusters.size
    f.nets.nets.size)

end Fabric

end RoutingFabric
