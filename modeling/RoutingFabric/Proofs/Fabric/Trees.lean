import RoutingFabric.Proofs.Fabric.Priming
import RoutingFabric.Proofs.RoutingGraph.Trees

/-!
# Routed nets of a fabric are trees

In a prepared fabric whose nets have been traced, selected drivers lead from every node of a net to
the first node of its trace. That node is free of a driver, and every logical net can be forwarded
to its end, as long as no trace leads back to its own first node. A trace that does is accepted all
the same, and forwarding from its first node then has no end.
-/

namespace RoutingFabric.Fabric

open RoutingGraph

/-- In a traced graph drivers lead up to the first node of the trace. Whether that is a root, and
whether forwarding ends, depends on whether traces lead back to their first nodes. -/
theorem trees_of_traceAll (f₀ f : Fabric) (t : NetTable) (skip : Bool) (stats : RoutingStats)
    (g : RoutingGraph) (hprepare : prepare.Gives f₀ () f)
    (htrace : (traceAll t skip).Gives f.graph stats g) :
  (∀ q n net, g.node q = .ok n → n.net = some net →
      ∃ m first path, t.Routed skip net m ∧ m.trace.head? = some first ∧ g.Climbs first q path
        ∧ path.Nodup)
    ∧ (∀ net m first n, t.Routed skip net m → m.trace.head? = some first →
      g.node first = .ok n → (n.selected = none ↔ ¬ f.graph.Returns m.trace))
    ∧ ((∀ id < g.size, ∃ count g', g.forwardLogical id = .ok (count, g'))
      ↔ ∀ net m, t.Routed skip net m → ¬ f.graph.Returns m.trace)
  := by
  have hbefore := tracedBefore_of_traceAll htrace
  have htraced := hbefore.traced
  have hlegal := hbefore.legalTraces
  refine ⟨?_, ?_, ?_⟩
  · intro q n net hn hnet
    apply htraced.exists_climbs hlegal hn hnet
  · intro net m first n hm hfirst hn
    apply htraced.selected_eq_none_iff hlegal hm hfirst hn
  · apply htraced.exists_forwardLogical_iff hlegal (bindings_of_prepare hprepare).1

/-- A pin that drives a wire, from which two sinks are reached. -/
def forkFabric : Fabric where
  grid := ⟨2, 2⟩
  graph := { forkGraph with lookup := [0, 1, 2, 3] }

/-- The fabric after preparation. -/
def preparedFork : Fabric :=
  { forkFabric with graph :=
      ((do buildDriverIndex; identifyDriverSwitches).run forkFabric.graph).state }

/-- The graph of the fabric after the net is traced. -/
def tracedFork : RoutingGraph := ((traceAll forkNets false).run preparedFork.graph).state

/-- From all nodes drivers lead up to the pin. -/
theorem trees_fork :
  prepare.Gives forkFabric () preparedFork
    ∧ (traceAll forkNets false).Gives preparedFork.graph { routed := 1, annotated := 4 } tracedFork
    ∧ ∀ q n net, tracedFork.node q = .ok n → n.net = some net →
      ∃ m first path, forkNets.Routed false net m ∧ m.trace.head? = some first
        ∧ tracedFork.Climbs first q path ∧ path.Nodup
  := by
  have hprepare : prepare.Gives forkFabric () preparedFork := by
    apply prepare_of_inOrder rfl (g := preparedFork.graph)
    · decide
    · constructor
      · decide +kernel
      · rfl
    · decide +kernel
    · apply Phase.gives_pure_iff.mpr ⟨rfl, rfl⟩
  have htrace : (traceAll forkNets false).Gives preparedFork.graph { routed := 1, annotated := 4 }
      tracedFork := ⟨by decide +kernel, rfl⟩
  exact ⟨hprepare, htrace, (trees_of_traceAll _ _ _ _ _ _ hprepare htrace).1⟩

/-- Two wires that drive each other. -/
def ringFabric : Fabric where
  grid := ⟨2, 2⟩
  graph := {
    switches := #[{ name := "switch" }]
    nodes := #[
      { kind := .channelX, low := ⟨1, 0⟩, high := ⟨1, 0⟩, ptc := 0, direction := some .increasing,
        fanIn := 1, edges := [⟨1, 0⟩] },
      { kind := .channelX, low := ⟨1, 0⟩, high := ⟨1, 0⟩, ptc := 1, direction := some .increasing,
        fanIn := 1, edges := [⟨0, 0⟩] }]
    lookup := [0, 1] }
  nets := { nets := #[{ name := "ring", logical := 0, trace := [0, 1, 0] }], logicals := #[⟨"ring"⟩] }

/-- The fabric after preparation. -/
def preparedRing : Fabric :=
  { ringFabric with graph :=
      ((do buildDriverIndex; identifyDriverSwitches).run ringFabric.graph).state }

/-- The graph of the fabric after the nets are traced. -/
def tracedRing : RoutingGraph := ((traceAll ringFabric.nets true).run preparedRing.graph).state

/-- A net that runs around the ring is traced. The first node of its trace has then selected a
driver, and forwarding from there has no end. -/
theorem endless_ring :
  prepare.Gives ringFabric () preparedRing
    ∧ (traceAll ringFabric.nets true).Gives preparedRing.graph { routed := 1, annotated := 2 }
      tracedRing
    ∧ (tracedRing.nodes[0]?).bind (·.selected) = some ⟨1, 0, 0⟩
    ∧ tracedRing.forwardLogical 0 = .error (.fault .endless)
  := by
  refine ⟨?_, ?_, ?_, ?_⟩
  · apply prepare_of_inOrder rfl (g := preparedRing.graph)
    · decide
    · constructor
      · decide +kernel
      · rfl
    · decide +kernel
    · apply Phase.gives_pure_iff.mpr ⟨rfl, rfl⟩
  · exact ⟨by decide +kernel, rfl⟩
  · decide +kernel
  · cbv

end RoutingFabric.Fabric
