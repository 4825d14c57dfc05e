import RoutingFabric.Fabric.Parasitic
import RoutingFabric.Options.Basic
import RoutingFabric.RoutingGraph.Tracing

/-!
# Runs

A run annotates a prepared fabric. It traces the routed nets, selects the drivers inside of the
clusters, and looks for parasitic nets. The annotations of the fabric agree with each other only
if the run succeeds.
-/

namespace RoutingFabric

/-- What a run found. -/
structure Report where
  routing : RoutingStats
  clusters : Nat
  openPins : Nat
  rounds : Nat
  parasiticNodes : Nat
  deriving DecidableEq

namespace Fabric

/-- The routed nets are traced. -/
def traceNets (skipDedicated : Bool) : Phase Fabric RoutingStats := do
  let f ← Phase.state
  onGraph (RoutingGraph.traceAll f.nets skipDedicated)

/-- The limit on rounds. -/
def roundLimit (o : Options) (f : Fabric) : Outcome Nat :=
  match o.maxRounds with
  | some limit => .ok limit
  | none => f.defaultRounds

/-- The number of open pins of all clusters. -/
def openPins (f : Fabric) : Nat := f.clusters.foldr (·.locals.openCount + ·) 0

/-- The fabric is annotated. -/
def annotate (o : Options) : Phase Fabric Report := do
  let routing ← traceNets o.skipDedicated
  annotateClusters
  let limit ← Phase.lift (roundLimit o (← Phase.state))
  let rounds ← propagateParasitic limit
  let f ← Phase.state
  let nodes ← Phase.lift f.parasiticNodes
  let report : Report :=
    { routing, clusters := f.clusters.size, openPins := f.openPins, rounds,
      parasiticNodes := nodes.length }
  Phase.report (.runDone report.clusters report.parasiticNodes report.rounds)
  return report

end Fabric

end RoutingFabric
