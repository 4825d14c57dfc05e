import RoutingFabric.Proofs.Fabric.Priming

/-!
# Runs end in a fixed point

A run ends after a round that has changed no input of a cluster. Nothing moves any more then:
another round leaves the fabric as it is, boundary inputs carry the logical nets of their nodes, and
a node that a single output covers carries what the output does.
-/

namespace RoutingFabric.Fabric

/-- The state of a pin. -/
def pinState (f : Fabric) (p : PinAt) : Option Cluster.PinState :=
  (f.clusters[p.cluster]?).bind (·.locals.pins[p.pin]?)

/-- The logical nets of nodes and pins agree. -/
structure Settled (f : Fabric) : Prop where
  /-- another round leaves nodes, pins and all else as they are -/
  fixed : parasiticRound.Gives f 0 f
  /-- an input of a cluster that has selected no driver carries the logical net of its node, if a net
  is routed there -/
  inputs : ∀ p s node n, f.pinState p = some s → s.selected = none → f.InputOn p node →
    f.graph.node node = .ok n → n.net.isSome → s.logical = n.logical
  /-- a node that only one output covers carries the logical net of the output, if there is one -/
  outputs : ∀ p q logical, f.Covers p q → (∀ p', f.Covers p' q → p' = p) →
    f.pinLogical p = some logical → f.graph.logicalAt q = some logical

variable {f f₀ f₁ f' : Fabric}

/-- A run traces nets, annotates clusters, looks for parasitic nets, and reports what it found. -/
theorem gives_annotate_iff {o : Options} {report : Report} :
  (annotate o).Gives f report f' ↔ ∃ routing f₁ f₂ limit rounds nodes,
    (traceNets o.skipDedicated).Gives f routing f₁ ∧ annotateClusters.Gives f₁ () f₂
    ∧ roundLimit o f₂ = .ok limit ∧ (propagateParasitic limit).Gives f₂ rounds f'
    ∧ f'.parasiticNodes = .ok nodes
    ∧ report = ⟨routing, f'.clusters.size, f'.openPins, rounds, nodes.length⟩
  := by
  simp only [annotate, Phase.gives_bind_iff, Phase.gives_state_iff, Phase.gives_lift_iff,
    Phase.gives_report_iff, Phase.gives_pure_iff]
  constructor
  · rintro ⟨routing, f₁, htrace, _, f₂, hclusters, _, _, ⟨rfl, rfl⟩, limit, _, ⟨hlimit, rfl⟩,
      rounds, f₃, hrounds, _, _, ⟨rfl, rfl⟩, nodes, _, ⟨hnodes, rfl⟩, _, _, rfl, rfl, rfl⟩
    exact ⟨routing, f₁, f₂, limit, rounds, nodes, htrace, hclusters, hlimit, hrounds, hnodes, rfl⟩
  · rintro ⟨routing, f₁, f₂, limit, rounds, nodes, htrace, hclusters, hlimit, hrounds, hnodes, rfl⟩
    exact ⟨routing, f₁, htrace, (), f₂, hclusters, _, _, ⟨rfl, rfl⟩, limit, _, ⟨hlimit, rfl⟩,
      rounds, f', hrounds, _, _, ⟨rfl, rfl⟩, nodes, _, ⟨hnodes, rfl⟩, (), _, rfl, rfl, rfl⟩

/-- The open pins of a fabric are those of its clusters. -/
theorem openPins_eq_foldr (f : Fabric) :
  f.openPins = (f.clusters.toList.map (·.locals.openCount)).foldr (· + ·) 0
  := by
  rw [openPins, ← Array.foldr_toList, List.foldr_map]

/-- A run traces nets, annotates clusters, and looks for parasitic nets. -/
theorem exists_phases_of_annotate {o : Options} {report : Report}
    (h : (annotate o).Gives f report f') :
  ∃ stats f₁ f₂ limit rounds, (traceNets o.skipDedicated).Gives f stats f₁
    ∧ annotateClusters.Gives f₁ () f₂ ∧ roundLimit o f₂ = .ok limit
    ∧ (propagateParasitic limit).Gives f₂ rounds f'
  := by
  obtain ⟨routing, f₁, f₂, limit, rounds, -, htrace, hclusters, hlimit, hrounds, -, -⟩ :=
    gives_annotate_iff.mp h
  exact ⟨routing, f₁, f₂, limit, rounds, htrace, hclusters, hlimit, hrounds⟩

/-- In a steady fabric an input without a driver carries the logical net of its node. -/
theorem Steady.input_eq {p : PinAt} {s : Cluster.PinState} {node : NodeId} {n : RoutingGraph.Node}
    (h : f.Steady) (hs : f.pinState p = some s) (hfree : s.selected = none)
    (hinput : f.InputOn p node) (hn : f.graph.node node = .ok n) (hnet : n.net.isSome) :
  s.logical = n.logical
  := by
  obtain ⟨b, c, hc, hboundary, hnode⟩ := hinput
  rw [pinState, hc.1] at hs
  apply ((h p.cluster b c hc).eq_of_isClusterInput hs hfree hboundary hnode hn hnet).2

/-- After outputs have been moved to the graph, a node that only one of them covers carries its
logical net. -/
theorem Primed.covered_eq {nodes : Nat} {p : PinAt} {q : NodeId} {logical : LogicalId}
    (hf : f.Primed) (h : f.exportOutputs = .ok (nodes, f')) (hcovers : f.Covers p q)
    (honly : ∀ p', f.Covers p' q → p' = p) (hcarries : f.pinLogical p = some logical) :
  f'.graph.logicalAt q = some logical
  := by
  obtain ⟨-, -, hlogical⟩ := hf.exportOutputs h
  have harrives : arriving f.graph f.pinLogical q f.outlets = some logical := by
    apply arriving_eq_some
    · intro o ho hreaches
      rw [honly o.pin ⟨o.node, mem_outlets_iff.mp ho, hreaches⟩, hcarries]
    · obtain ⟨node, hnode, hreaches⟩ := hcovers
      exact ⟨⟨p, node⟩, mem_outlets_iff.mpr hnode, hreaches⟩
  rw [hlogical q, harrives]
  rfl

/-- After a round that changes no input, logical nets agree. -/
theorem Primed.settled (hf : f.Primed) (hsteady : f.Steady) (h : parasiticRound.Gives f 0 f') :
  f'.Settled
  := by
  have hnext := hf.advanced h
  obtain ⟨nodes, f₁, hexport, hgraph⟩ := hnext.exports
  constructor
  case fixed => apply hf.round_of_quiet hsteady h
  case inputs =>
    intro p s node n
    apply (hnext.steady hf).input_eq
  case outputs =>
    intro p q logical hcovers honly hcarries
    rw [hgraph]
    rw [hnext.pinLogical_eq hf hsteady] at hcarries
    apply hf.covered_eq hexport (hcovers.of_silent_eq hnext.same) _ hcarries
    intro p' hp'
    apply honly p' (hp'.of_silent_eq hnext.same.symm)

/-- A run of a prepared fabric ends with logical nets that agree. -/
theorem settled_of_annotate (f₀ f f' : Fabric) (o : Options) (report : Report)
    (hprepare : prepare.Gives f₀ () f) (h : (annotate o).Gives f report f') :
  f'.Settled
  := by
  obtain ⟨stats, f₁, f₂, limit, rounds, htrace, hclusters, -, hrounds⟩ :=
    exists_phases_of_annotate h
  obtain ⟨hprimed, hsteady⟩ := primed_of_phases hprepare htrace hclusters
  obtain ⟨last, hlast, hlastSteady, hround, -⟩ := exists_last_of_roundsFrom hprimed hsteady hrounds
  apply hlast.settled hlastSteady hround

/-- A block that passes three of its four inputs on. -/
def ladderBlock : BlockGraph where
  name := "ladder"
  blocks := #[
    { name := "ladder", type := "ladder", modes := [⟨"default", [], [0, 1, 2]⟩],
      pins := [0, 1, 2, 3, 4, 5, 6] }]
  pins := #[
    { block := 0, port := "in0", bit := 0, kind := .input, boundary := some 0, outputs := [0] },
    { block := 0, port := "out0", bit := 0, kind := .output, boundary := some 1, inputs := [0] },
    { block := 0, port := "in1", bit := 0, kind := .input, boundary := some 2, outputs := [1] },
    { block := 0, port := "out1", bit := 0, kind := .output, boundary := some 3, inputs := [1] },
    { block := 0, port := "in2", bit := 0, kind := .input, boundary := some 4, outputs := [2] },
    { block := 0, port := "out2", bit := 0, kind := .output, boundary := some 5, inputs := [2] },
    { block := 0, port := "in3", bit := 0, kind := .input, boundary := some 6 }]
  edges := #[⟨0, 1, 0⟩, ⟨2, 3, 1⟩, ⟨4, 5, 2⟩]
  interconnects := #[
    { name := "pass0", kind := .wire, owner := 0, mode := 0, edges := [0] },
    { name := "pass1", kind := .wire, owner := 0, mode := 0, edges := [1] },
    { name := "pass2", kind := .wire, owner := 0, mode := 0, edges := [2] }]

/-- The pins of the block, and a pin elsewhere that leads to the first input. Each output leads to
the next input. -/
def ladderGraph : RoutingGraph where
  switches := #[{ name := "switch" }]
  nodes := #[
    { kind := .outPin, low := ⟨0, 1⟩, high := ⟨0, 1⟩, ptc := 0, edges := [⟨1, 0⟩] },
    { kind := .inPin, low := ⟨1, 1⟩, high := ⟨1, 1⟩, ptc := 0, fanIn := 1 },
    { kind := .outPin, low := ⟨1, 1⟩, high := ⟨1, 1⟩, ptc := 1, edges := [⟨3, 0⟩] },
    { kind := .inPin, low := ⟨1, 1⟩, high := ⟨1, 1⟩, ptc := 2, fanIn := 1 },
    { kind := .outPin, low := ⟨1, 1⟩, high := ⟨1, 1⟩, ptc := 3, edges := [⟨5, 0⟩] },
    { kind := .inPin, low := ⟨1, 1⟩, high := ⟨1, 1⟩, ptc := 4, fanIn := 1 },
    { kind := .outPin, low := ⟨1, 1⟩, high := ⟨1, 1⟩, ptc := 5, edges := [⟨7, 0⟩] },
    { kind := .inPin, low := ⟨1, 1⟩, high := ⟨1, 1⟩, ptc := 6, fanIn := 1 }]
  lookup := [0, 1, 2, 3, 4, 5, 6, 7]

/-- A net from each pin that leads to an input. -/
def ladderNets : NetTable where
  nets := #[
    { name := "w", logical := 0, trace := [0, 1] },
    { name := "x", logical := 1, trace := [2, 3] },
    { name := "y", logical := 2, trace := [4, 5] },
    { name := "z", logical := 3, trace := [6, 7] }]
  logicals := #[⟨"w"⟩, ⟨"x"⟩, ⟨"y"⟩, ⟨"z"⟩]

/-- The block with its nets. -/
def ladderFabric : Fabric where
  grid := ⟨3, 3⟩
  graph := ladderGraph
  blockGraphs := #[ladderBlock]
  clusters := #[Cluster.ofType "c" 0 ladderBlock ⟨1, 1⟩]
  nets := ladderNets

/-- The graph with all drivers known. -/
def indexedLadder : RoutingGraph :=
  ((do RoutingGraph.buildDriverIndex; RoutingGraph.identifyDriverSwitches).run ladderGraph).state

/-- The fabric after preparation. -/
def preparedLadder : Fabric :=
  ((Phase.each prepareCluster [0]).run { ladderFabric with graph := indexedLadder }).state

/-- The fabric is prepared. -/
theorem prepare_ladderFabric :
  prepare.Gives ladderFabric () preparedLadder
  := by
  apply prepare_of_inOrder rfl (g := indexedLadder)
  · decide
  · constructor
    · decide +kernel
    · rfl
  · decide +kernel
  · constructor
    · decide +kernel
    · rfl

/-- The fabric after a run that four rounds are allowed for. -/
def settledLadder : Fabric := ((annotate { maxRounds := some 4 }).run preparedLadder).state

/-- The run succeeds. -/
theorem annotate_preparedLadder :
  (annotate { maxRounds := some 4 }).Gives preparedLadder ⟨⟨4, 0, 8⟩, 1, 0, 4, 6⟩ settledLadder
  := by
  constructor
  · decide +kernel
  · rfl

/-- With four rounds allowed, the first net arrives at all pins of the block. -/
theorem settled_ladder :
  prepare.Gives ladderFabric () preparedLadder
    ∧ (annotate { maxRounds := some 4 }).Gives preparedLadder ⟨⟨4, 0, 8⟩, 1, 0, 4, 6⟩
      ((annotate { maxRounds := some 4 }).run preparedLadder).state
    ∧ ((annotate { maxRounds := some 4 }).run preparedLadder).state.Settled
  := ⟨prepare_ladderFabric, annotate_preparedLadder,
    settled_of_annotate _ _ _ _ _ prepare_ladderFabric annotate_preparedLadder⟩

end RoutingFabric.Fabric
