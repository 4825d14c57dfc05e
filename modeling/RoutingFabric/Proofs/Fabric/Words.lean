import RoutingFabric.Proofs.Cluster.Words
import RoutingFabric.Proofs.Fabric.Safety
import RoutingFabric.Proofs.RoutingGraph.Words

/-!
# Runs count in machine words

What a run counts is bounded by what the fabric has, at the end and at each step on the way. Where
these bounds are machine words, a run that keeps its counts in words is the run that counts without
a bound: it is stopped by the same problems and never by an overflow.
-/

namespace RoutingFabric

/-! ### Numbers that fit -/

/-- The numbers in the event. -/
def Event.numbers : Event → List Nat
  | .driverIndexBuilt nodes edges => [nodes, edges]
  | .prepared width height nodes clusters nets => [width, height, nodes, clusters, nets]
  | .dedicatedNetSkipped _ => []
  | .netsRouted routed annotated skipped => [routed, annotated, skipped]
  | .driversSelected _ selected openPins => [selected, openPins]
  | .roundDone nodes pins => [nodes, pins]
  | .settled rounds => [rounds]
  | .diverged _ => []
  | .runDone clusters nodes rounds => [clusters, nodes, rounds]
  | .boxesBuilt switchBoxes connectionBoxes => [switchBoxes, connectionBoxes]
  | .bitstreamAssembled bits boxes clusters models => [bits, boxes, clusters, models]

/-- The numbers in the report. -/
def Report.numbers (r : Report) : List Nat :=
  [r.routing.routed, r.routing.skipped, r.routing.annotated, r.clusters, r.openPins, r.rounds,
    r.parasiticNodes]

/-- The numbers are machine words. -/
def Words (ns : List Nat) : Prop := ∀ n ∈ ns, n < wordLimit

/-- What is bounded by the extent fits machine words. All but the last are numbers of things that
are there, or a limit that is given. In a round each binding may change each node, so that there has
to be room for all of these changes as well. -/
structure Extent.Fits (m : Extent) : Prop where
  nets : m.nets < wordLimit
  nodes : m.nodes < wordLimit
  clusters : m.clusters < wordLimit
  pins : m.pins < wordLimit
  edges : m.edges < wordLimit
  rounds : m.rounds < wordLimit
  changes : m.bindings * m.nodes < wordLimit

/-- What is counted in an event of a run is a word. -/
theorem Event.Within.words {m : Extent} {e : Event} (h : e.Within m) (hm : m.Fits) :
  Words e.numbers
  := by
  obtain ⟨hnets, hnodes, hclusters, hpins, -, hrounds, hchanges⟩ := hm
  intro n hn
  cases e <;> simp only [numbers, List.mem_cons, List.not_mem_nil, or_false] at hn <;>
    simp only [Within] at h <;> omega

/-- What is counted in the report of a run is a word. -/
theorem Report.Within.words {m : Extent} {r : Report} (h : r.Within m) (hm : m.Fits) :
  Words r.numbers
  := by
  obtain ⟨hnets, hnodes, hclusters, hpins, -, hrounds, -⟩ := hm
  obtain ⟨hrouted, hannotated, hclusters', hopen, hrounds', hparasitic⟩ := h
  intro n hn
  simp only [numbers, List.mem_cons, List.not_mem_nil, or_false] at hn
  omega

namespace Fabric

open RoutingGraph

variable {f f' f₀ f₁ f₂ : Fabric} {g g' : RoutingGraph} {b : BlockGraph} {c : Cluster}
variable {pin : PinId} {node : NodeId} {bindings : List (PinId × NodeId)} {cs : List Cluster}
variable {id limit done more updated changed n : Nat} {ids : List Nat} {skip : Bool}

/-! ### Tracing nets -/

/-- Nets are traced in words where the numbers of nets and nodes are words. -/
theorem run_words_traceNets (hm : (f.extent limit).Fits) :
  (InWords.traceNets skip).run f = (traceNets skip).run f
  := by
  apply Phase.run_state_bind_congr
  apply Phase.run_focus_congr
  apply run_words_traceAll hm.nodes hm.nets

/-! ### Annotating clusters -/

/-- No more edges may drive a pin than reach pins. -/
theorem inputCount_le_edgesIn (hb : b ∈ f.blockGraphs) :
  Cluster.inputCount b c pin ≤ edgesIn f.blockGraphs.toList
  := by
  have htype : (b.pins.toList.map (·.inputs.length)).sum ≤ edgesIn f.blockGraphs.toList := by
    apply List.le_sum_of_mem
    apply List.mem_map.mpr
    use b, Array.mem_toList_iff.mpr hb
  apply (Cluster.inputCount_le b c pin).trans
  cases hp : b.pins[pin]? with
  | none => apply Nat.zero_le
  | some p =>
    apply Nat.le_trans _ htype
    apply List.le_sum_of_mem
    apply List.mem_map.mpr
    use p, Array.mem_toList_iff.mpr (Array.mem_of_getElem? hp)
    rfl

/-- A phase on a cluster runs like another one if it does on that cluster. -/
theorem run_onCluster_congr {α : Type} {p q : Phase Cluster α}
    (h : ∀ c, f.clusters[id]? = some c → p.run c = q.run c) :
  (onCluster id p).run f = (onCluster id q).run f
  := by
  apply Phase.run_state_bind_congr
  apply Phase.run_lift_bind_congr
  intro c hc
  apply Phase.run_focus_congr
  apply h c (entry_eq_ok_iff.mp hc)

/-- A cluster is annotated in words where the numbers of pins and edges are words. -/
theorem Reclustered.run_words_annotateCluster (h : f₁.Reclustered f)
    (hm : (f₁.extent limit).Fits) :
  (InWords.annotateCluster id).run f = (Fabric.annotateCluster id).run f
  := by
  rw [← h.extent] at hm
  apply Phase.run_state_bind_congr
  apply Phase.run_lift_bind_congr
  intro c hc
  rw [entry_eq_ok_iff] at hc
  apply Phase.run_lift_bind_congr
  intro b hb
  have hpins : b.pins.size < wordLimit := by
    rw [← (h.checked.cluster hc hb).size]
    apply Nat.lt_of_le_of_lt (pins_le_of_mem (Array.mem_of_getElem? hc)) hm.pins
  apply run_onCluster_congr
  intro c' hc'
  rw [hc] at hc'
  cases hc'
  apply Phase.run_bind_congr
  · apply Cluster.run_words_selectLocalDrivers hpins
    intro pin
    apply Nat.lt_of_le_of_lt _ hm.edges
    apply inputCount_le_edgesIn (Array.mem_of_getElem? (entry_eq_ok_iff.mp hb))
  · intro _ c' hselect
    obtain ⟨pins, order, hselected, horder, rfl⟩ := Cluster.gives_selectLocalDrivers_iff.mp hselect
    have hordered := Cluster.ordered_of_selection hselected horder
    apply Phase.run_state_bind_congr
    rw [hordered.words_propagateNets]
    rw [hordered.size]
    apply hpins

/-- Clusters are annotated in words where the numbers of pins and edges are words. -/
theorem Checked.run_words_annotateClusters (hf : f.Checked) (hm : (f.extent limit).Fits) :
  InWords.annotateClusters.run f = Fabric.annotateClusters.run f
  := by
  apply Phase.run_state_bind_congr
  apply Phase.run_each_congr (I := f.Reclustered)
  · exact ⟨hf, rfl, rfl, rfl, fun _ => rfl⟩
  · intro id _ s hs
    constructor
    · apply hs.run_words_annotateCluster hm
    · intro s' hstep
      apply hs.annotateCluster hstep

/-! ### Moving outputs to the graph -/

/-- A pin is moved to the graph in words where there is room for all nodes. -/
theorem words_exportPin (hroom : updated + g.size < wordLimit) :
  InWords.exportPin b c g updated pin node = countedFrom updated (exportPin b c g pin node)
  := by
  apply countedFrom_after
  intro p _
  split
  · rfl
  · apply countedFrom_after
    intro s _
    cases s.logical with
    | none => rfl
    | some logical =>
      have hunlike : g.unlike (some logical) ≤ g.size := unlike_le
      apply countedFrom_bind
      · apply words_giveLogical
        omega
      intro here g' hgive
      obtain ⟨hsame, -⟩ := logicalAt_of_giveLogical hgive
      have hsize := size_eq_of_view_eq hsame
      dsimp only
      rw [words_forwardLogical (by omega)]
      apply countedFrom_after
      rintro ⟨beyond, g''⟩ hforward
      -- the node and those reached from it are counted once each
      have hcount := count_le_of_forwardLogical hgive hforward
      dsimp only
      rw [word_of_lt (by omega), Nat.add_assoc]
      rfl

/-- Pins are moved to the graph in words where there is room for all nodes, for each of them. -/
theorem words_exportPins (hg : g.Wired) (hbound : Bound b c g bindings)
    (hroom : updated + bindings.length * g.size < wordLimit) :
  InWords.exportPins b c g updated bindings = countedFrom updated (exportPins b c g bindings)
  := by
  induction bindings generalizing g updated with
  | nil => rfl
  | cons x bindings ih =>
    obtain ⟨pin, node⟩ := x
    rw [List.length_cons, Nat.succ_mul] at hroom
    apply countedFrom_bind
    · apply words_exportPin
      omega
    intro here g' hpin
    obtain ⟨⟨p, hp⟩, -⟩ := hbound (pin, node) List.mem_cons_self
    obtain ⟨hsame, -⟩ := logicalAt_of_exportPin hg hp hpin
    have hsize := size_eq_of_view_eq hsame
    have hcount := count_le_of_exportPin hpin
    apply Eq.trans _ (countedFrom_countedFrom _).symm
    apply ih (hg.of_silent_eq hsame.symm)
    · intro x hx
      rw [hsize]
      apply hbound x (List.mem_cons_of_mem _ hx)
    · rw [hsize]
      omega

/-- Clusters are moved to the graph in words where there is room for all nodes, for each of their
bindings. -/
theorem Primed.words_exportClusters (hf : f.Primed) (hg : g.silent = f.graph.silent)
    (hcs : ∀ c ∈ cs, c ∈ f.clusters)
    (hroom : updated + bindingsIn cs * f.graph.size < wordLimit) :
  InWords.exportClusters f g updated cs = countedFrom updated (exportClusters f g cs)
  := by
  induction cs generalizing g updated with
  | nil => rfl
  | cons c cs ih =>
    obtain ⟨hc, hcs⟩ := List.forall_mem_cons.mp hcs
    obtain ⟨i, hi⟩ := Array.mem_iff_getElem?.mp hc
    rw [bindingsIn, List.map_cons, List.sum_cons, Nat.add_mul, ← bindingsIn] at hroom
    apply countedFrom_after
    intro b hb
    have hsize := size_eq_of_view_eq hg
    have hprimed := hf.cluster ⟨hi, hb⟩
    rw [← hsize] at hprimed
    have hwired := hf.wired.of_silent_eq hg.symm
    have hbound := bound_of_primed hprimed
    apply countedFrom_bind
    · apply words_exportPins hwired hbound
      rw [hsize]
      omega
    intro here g' hpins
    obtain ⟨hsame, -⟩ := logicalAt_of_exportPins hwired hbound (pinLogical_eq hi) hpins
    have hcount := count_le_of_exportPins hwired hbound hpins
    rw [hsize] at hcount
    apply Eq.trans _ (countedFrom_countedFrom _).symm
    apply ih (hsame.trans hg) hcs
    omega

/-- Outputs are moved to the graph in words where there is room for all nodes, for each binding. -/
theorem Primed.words_exportOutputs (hf : f.Primed) (hm : (f.extent limit).Fits) :
  InWords.exportOutputs f = f.exportOutputs
  := by
  have hchanges : bindingsIn f.clusters.toList * f.graph.size < wordLimit := hm.changes
  rw [InWords.exportOutputs, Fabric.exportOutputs, hf.words_exportClusters rfl, countedFrom_zero]
  · intro c hc
    apply Array.mem_toList_iff.mp hc
  · rw [Nat.zero_add]
    apply hchanges

/-! ### Propagating nets in clusters -/

/-- Nets are propagated in a cluster in words where the number of its pins is one. -/
theorem Primed.words_propagateCluster (hf : f.Primed) (hpins : f.pinsAt id < wordLimit) :
  InWords.propagateCluster f id = f.propagateCluster id
  := by
  apply bind_congr_of_ok
  intro c hc
  rw [entry_eq_ok_iff] at hc
  apply bind_congr_of_ok
  intro b hb
  rw [pinsAt, hc] at hpins
  rw [(hf.cluster ⟨hc, hb⟩).ordered.words_propagateNets hpins]

/-- Nets are propagated in clusters in words where there is room for their pins. -/
theorem Primed.words_propagateClusters (hf : f.Primed)
    (hroom : changed + (ids.map f.pinsAt).sum < wordLimit) :
  InWords.propagateClusters f changed ids = countedFrom changed (f.propagateClusters ids)
  := by
  induction ids generalizing f changed with
  | nil => rfl
  | cons i ids ih =>
    rw [List.map_cons, List.sum_cons] at hroom
    rw [InWords.propagateClusters, Fabric.propagateClusters, hf.words_propagateCluster (by omega)]
    apply countedFrom_after
    rintro ⟨here, f'⟩ hcluster
    obtain ⟨b, c, c', hc, hok, rfl⟩ := propagateCluster_eq_ok_iff.mp hcluster
    have hprimed := hf.cluster hc
    have hsame := silent_of_modify hc.1 (hprimed.ordered.propagated hok).same
    have hcount := hprimed.ordered.count_le hok
    have hpins : f.pinsAt i = c.locals.pins.size := by
      rw [pinsAt, hc.1]
      rfl
    dsimp only
    rw [word_of_lt (by omega), ok_bind]
    apply Eq.trans _ (countedFrom_countedFrom _).symm
    apply ih (hf.of_silent_eq hsame.symm)
    rw [pinsAt_congr hsame]
    omega

/-- Nets are propagated in all clusters in words where the number of pins is one. -/
theorem Primed.words_propagateAll (hf : f.Primed) (hm : (f.extent limit).Fits) :
  InWords.propagateAll f = f.propagateAll
  := by
  have hpins : pinsIn f.clusters.toList < wordLimit := hm.pins
  rw [InWords.propagateAll, Fabric.propagateAll, hf.words_propagateClusters, countedFrom_zero]
  rw [Nat.zero_add, sum_pinsAt]
  apply hpins

/-! ### Rounds -/

/-- A round counts in words where the numbers of pins, and of nodes for each binding, are words. -/
theorem Primed.run_words_parasiticRound (hf : f.Primed) (hm : (f.extent limit).Fits) :
  InWords.parasiticRound.run f = Fabric.parasiticRound.run f
  := by
  apply Phase.run_state_bind_congr
  rw [hf.words_exportOutputs hm]
  apply Phase.run_lift_bind_congr
  rintro ⟨nodes, f₁⟩ hexport
  obtain ⟨hsame, -, -⟩ := hf.exportOutputs hexport
  rw [← extent_congr hsame] at hm
  dsimp only
  rw [(hf.of_silent_eq hsame.symm).words_propagateAll hm]

/-- Rounds count in words where what they are bounded by does. -/
theorem Primed.run_words_roundsFrom (hf : f.Primed) (hm : (f.extent limit).Fits)
    (hmore : done + more ≤ limit) :
  (InWords.roundsFrom done more).run f = (Fabric.roundsFrom done more).run f
  := by
  have hlimit : limit < wordLimit := hm.rounds
  induction more generalizing f done with
  | zero => rfl
  | succ more ih =>
    apply Phase.run_bind_congr (hf.run_words_parasiticRound hm)
    intro count f' hround
    have hnext := hf.advanced hround
    rw [Phase.run_word_bind (by omega)]
    split
    · rfl
    · apply ih (hnext.primed hf)
      · rw [extent_congr hnext.same]
        apply hm
      · omega

/-! ### Runs -/

/-- Open pins are counted in words where there is room for those of each cluster. -/
theorem words_openPins (hroom : n + (cs.map (·.locals.openCount)).sum < wordLimit) :
  InWords.openPins n cs = .ok (n + (cs.map (·.locals.openCount)).sum)
  := by
  induction cs generalizing n with
  | nil => rfl
  | cons c cs ih =>
    rw [List.map_cons, List.sum_cons, ← Nat.add_assoc] at hroom ⊢
    rw [InWords.openPins, word_of_lt (by omega), ok_bind]
    apply ih hroom

/-- All open pins are counted in words where the number of pins is one. -/
theorem words_allOpenPins (hm : (f.extent limit).Fits) :
  InWords.openPins 0 f.clusters.toList = .ok f.openPins
  := by
  have hpins : pinsIn f.clusters.toList < wordLimit := hm.pins
  have hopen := openPins_le f
  rw [openPins_eq_foldr, ← List.sum_eq_foldr] at hopen ⊢
  rw [words_openPins, Nat.zero_add]
  omega

/-- A run of a prepared fabric is the same in words where what it counts is bounded by words. -/
theorem run_words_annotate {o : Options} (hprepare : prepare.Gives f₀ () f)
    (hlimit : o.maxRounds = some limit) (hm : (f.extent limit).Fits) :
  (InWords.annotate o).run f = (annotate o).run f
  := by
  apply Phase.run_bind_congr (run_words_traceNets hm)
  intro stats f₁ htrace
  obtain ⟨g, rfl, -, hsize⟩ := wired_of_traceNets (bindings_of_prepare hprepare).1 htrace
  have hextent : extent { f with graph := g } limit = f.extent limit := by
    rw [extent, extent, hsize]
  apply Phase.run_bind_congr
  · apply ((checked_of_prepare hprepare).with_graph hsize).run_words_annotateClusters
    rw [hextent]
    apply hm
  intro _ f₂ hclusters
  have hready := ready_of_phases hprepare htrace hclusters
  rw [← hready.extent] at hm
  apply Phase.run_state_bind_congr
  rw [roundLimit, hlimit]
  apply Phase.run_lift_bind_congr
  rintro _ ⟨⟩
  apply Phase.run_bind_congr
  · apply hready.primed.run_words_roundsFrom hm
    rw [Nat.zero_add]
  intro rounds f₃ hrounds
  obtain ⟨-, hsame⟩ := hready.primed.rounds_le hrounds
  rw [extent_congr hsame] at hm
  apply Phase.run_state_bind_congr
  rw [words_allOpenPins hm]
  rfl

/-- A run of a prepared fabric with a limit on rounds follows no id that points nowhere, and reaches
no argument that an operation does not take: a fault that stops it is a walk without an end. What it
counts on the way and in its report is bounded by what there is. Where that fits machine words, and
so does the number of nodes for each binding, since in a round each binding may change each node,
the run is the same with its counts kept in words: no sum leaves the word, and what is reported is
in words. -/
theorem safe_annotate_of_prepare (f₀ f : Fabric) (o : Options) (limit : Nat)
    (hprepare : prepare.Gives f₀ () f) (hlimit : o.maxRounds = some limit) :
  (annotate o).Safe (f.Unending o.skipDedicated) (·.Within (f.extent limit)) f
    ∧ (∀ report f', (annotate o).Gives f report f' → report.Within (f.extent limit))
    ∧ ((f.extent limit).Fits →
      (InWords.annotate o).run f = (annotate o).run f
        ∧ (InWords.annotate o).Safe (f.Unending o.skipDedicated) (Words ·.numbers) f
        ∧ ∀ report f', (InWords.annotate o).Gives f report f' → Words report.numbers)
  := by
  have hsafe := safe_annotate hprepare hlimit
  refine ⟨hsafe, fun report f' => within_of_annotate hprepare hlimit, ?_⟩
  intro hm
  have hrun := run_words_annotate hprepare hlimit hm
  refine ⟨hrun, ?_, ?_⟩
  · apply Phase.Safe.of_run_eq _ hrun
    constructor
    · apply hsafe.faults
    · intro e he
      apply (hsafe.events e he).words hm
  · intro report f' h
    rw [Phase.Gives, hrun] at h
    apply (within_of_annotate hprepare hlimit h).words hm

/-- The ladder may be run safely with four rounds allowed, and in machine words. -/
theorem safe_annotate_of_ladder :
  prepare.Gives ladderFabric () preparedLadder
    ∧ (preparedLadder.extent 4).Fits
    ∧ (InWords.annotate { maxRounds := some 4 }).Safe (preparedLadder.Unending true)
      (Words ·.numbers) preparedLadder
    ∧ (InWords.annotate { maxRounds := some 4 }).run preparedLadder
      = (annotate { maxRounds := some 4 }).run preparedLadder
    ∧ Report.Within (preparedLadder.extent 4) ⟨⟨4, 0, 8⟩, 1, 0, 4, 6⟩
  := by
  have hm : (preparedLadder.extent 4).Fits := by
    constructor <;> decide +kernel
  obtain ⟨-, hreport, hwords⟩ := safe_annotate_of_prepare ladderFabric preparedLadder
    { maxRounds := some 4 } 4 prepare_ladderFabric rfl
  obtain ⟨hrun, hsafe, -⟩ := hwords hm
  exact ⟨prepare_ladderFabric, hm, hsafe, hrun, hreport _ _ annotate_preparedLadder⟩

end Fabric

end RoutingFabric
