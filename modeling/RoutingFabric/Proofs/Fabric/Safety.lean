import Mathlib.Algebra.Order.BigOperators.Group.List
import RoutingFabric.Proofs.Cluster.Faults
import RoutingFabric.Proofs.Fabric.Faults
import RoutingFabric.Proofs.Fabric.FixedPoint

/-!
# Runs are safe

A run of a prepared fabric, whatever its traces, nets and clusters are, follows no id that points
nowhere. All that can stop it other than a problem is a walk without an end: along the blocks above
a block, for a name, or along selected links. What it counts is bounded by what the fabric has.
-/

namespace RoutingFabric

/-- How much a fabric has, and how many rounds are allowed. -/
structure Extent where
  nets : Nat
  nodes : Nat
  clusters : Nat
  pins : Nat
  edges : Nat
  bindings : Nat
  rounds : Nat

/-- The event is one of a run, and what is counted in it is there. In a round each binding may
change each node. -/
def Event.Within (m : Extent) : Event → Prop
  | .dedicatedNetSkipped _ => True
  | .netsRouted routed annotated skipped => routed + skipped = m.nets ∧ annotated ≤ m.nodes
  | .driversSelected _ selected openPins => selected ≤ m.pins ∧ openPins ≤ m.pins
  | .roundDone nodes pins => nodes ≤ m.bindings * m.nodes ∧ pins ≤ m.pins
  | .settled rounds => rounds ≤ m.rounds
  | .diverged _ => True
  | .runDone clusters nodes rounds =>
    clusters = m.clusters ∧ nodes ≤ m.nodes ∧ rounds ≤ m.rounds
  | _ => False

/-- What is counted in the report is there. -/
structure Report.Within (m : Extent) (r : Report) : Prop where
  nets : r.routing.routed + r.routing.skipped = m.nets
  annotated : r.routing.annotated ≤ m.nodes
  clusters : r.clusters = m.clusters
  openPins : r.openPins ≤ m.pins
  rounds : r.rounds ≤ m.rounds
  parasiticNodes : r.parasiticNodes ≤ m.nodes

namespace Fabric

open Relation RoutingGraph

/-- The number of edges that reach pins of types. -/
def edgesIn (bs : List BlockGraph) : Nat :=
  (bs.map fun b => (b.pins.toList.map (·.inputs.length)).sum).sum

/-- How much the fabric has, where so many rounds are allowed. -/
def extent (f : Fabric) (rounds : Nat) : Extent where
  nets := f.nets.nets.size
  nodes := f.graph.size
  clusters := f.clusters.size
  pins := pinsIn f.clusters.toList
  edges := edgesIn f.blockGraphs.toList
  bindings := bindingsIn f.clusters.toList
  rounds

/-- A walk has no end: along the blocks above a block of a type, or along the links that tracing
nets selects. -/
def Unending (f : Fabric) (skip : Bool) (e : Fault) : Prop :=
  (∃ b ∈ f.blockGraphs, b.Unending e)
    ∨ ∃ stats f', (traceNets skip).Gives f stats f' ∧ f'.graph.Unending e

variable {P : Fault → Prop} {f f' f₀ f₁ f₂ : Fabric} {c c' : Cluster} {m : Extent}
variable {id limit done more rounds count : Nat} {skip : Bool} {stats : RoutingStats}

/-! ### Extents -/

/-- How much a fabric has does not depend on nets. -/
theorem extent_congr (h : f.silent = f'.silent) : f.extent limit = f'.extent limit := by
  apply congr_of_silent_eq (extent · limit) _ h
  intro f
  have hpins : ∀ c : Cluster, c.silent.locals.pins.size = c.locals.pins.size :=
    fun c => Array.size_map
  have hbindings : ∀ c : Cluster, c.silent.locals.bindings = c.locals.bindings := fun _ => rfl
  simp [extent, silent, pinsIn, bindingsIn, Function.comp_def, hpins, hbindings,
    RoutingGraph.silent, view, RoutingGraph.size]

/-- A cluster may take the place of another one that has as many pins and bindings. -/
theorem extent_of_modify (hc : f.clusters[id]? = some c)
    (hpins : c'.locals.pins.size = c.locals.pins.size)
    (hbindings : c'.locals.bindings.length = c.locals.bindings.length) :
  extent { f with clusters := f.clusters.modify id fun _ => c' } limit = f.extent limit
  := by
  have hpins : (f.clusters.modify id fun _ => c').map (·.locals.pins.size)
      = f.clusters.map (·.locals.pins.size) := map_modify_of_eq hc hpins
  have hbindings : (f.clusters.modify id fun _ => c').map (·.locals.bindings.length)
      = f.clusters.map (·.locals.bindings.length) := map_modify_of_eq hc hbindings
  simp only [extent, pinsIn, bindingsIn, ← Array.toList_map, hpins, hbindings, Array.size_modify]

/-- A cluster has no more pins than there are. -/
theorem pins_le_of_mem (hc : c ∈ f.clusters) : c.locals.pins.size ≤ pinsIn f.clusters.toList := by
  apply List.le_sum_of_mem
  apply List.mem_map_of_mem (Array.mem_toList_iff.mpr hc)

/-- No more pins are open than there are. -/
theorem openPins_le (f : Fabric) : f.openPins ≤ pinsIn f.clusters.toList := by
  rw [openPins_eq_foldr, ← List.sum_eq_foldr, pinsIn]
  apply List.sum_le_sum
  intro c _
  apply List.countP_le_length

/-! ### Tracing nets -/

/-- Nets are traced safely. -/
theorem safe_traceNets : (traceNets skip).Safe P (·.Within (f.extent limit)) f := by
  apply Phase.safe_state_bind
  apply Phase.safe_focus
  apply safe_traceAll
  · intro name
    trivial
  · intro routed annotated skipped hnets hnodes
    exact ⟨hnets, hnodes⟩

/-- Tracing counts each net once, and so it does each node that has a net. -/
theorem counted_of_traceNets (h : (traceNets skip).Gives f stats f') :
  stats.routed + stats.skipped = f.nets.nets.size ∧ stats.annotated ≤ f.graph.size
  := by
  obtain ⟨g, htrace, rfl⟩ := gives_traceNets_iff.mp h
  apply counts_of_traceAll htrace

/-- Each node has a net whose logical net is found, or none. -/
def Routed (f : Fabric) : Prop :=
  ∀ q n, f.graph.node q = .ok n → ∃ logical, f.nets.logicalOf? n.net = .ok logical

/-- Once nets are traced, the logical net of the net of each node is found. -/
theorem routed_of_traceNets (h : (traceNets skip).Gives f stats f') : f'.Routed := by
  obtain ⟨g, htrace, rfl⟩ := gives_traceNets_iff.mp h
  intro q n hn
  apply exists_logicalOf_of_traced (tracedBefore_of_traceAll htrace).traced hn

/-- Nets of nodes are the same in fabrics that differ in logical nets only. -/
theorem Routed.of_silent_eq (h : f.Routed) (hsame : f.silent = f'.silent) : f'.Routed := by
  intro q n' hn'
  obtain ⟨n, hn, heq⟩ := exists_node_of_view_eq (graph_silent_eq hsame).symm hn'
  obtain ⟨logical, hlogical⟩ := h q n hn
  use logical
  have hnet : n'.silent.net = n.silent.net := by rw [heq]
  change n'.net = n.net at hnet
  rw [hnet, ← nets_congr hsame]
  apply hlogical

/-! ### Annotating clusters -/

/-- A phase on a cluster is safe if it is on that cluster. -/
theorem safe_onCluster {α : Type} {Q : Event → Prop} {p : Phase Cluster α}
    (hc : f.clusters[id]? = some c) (hp : p.Safe P Q c) :
  (onCluster id p).Safe P Q f
  := by
  rw [← entry_eq_ok_iff] at hc
  apply Phase.safe_state_bind
  apply Phase.safe_lift_bind
  · rw [hc]
    apply faultsIn_ok
  · intro c' hc'
    rw [hc] at hc'
    cases hc'
    apply Phase.safe_focus hp

/-- The fabric is checked, and differs from the one before at most in clusters, which have as many
pins and bindings. -/
structure Reclustered (f f' : Fabric) : Prop where
  checked : f'.Checked
  graph : f'.graph = f.graph
  types : f'.blockGraphs = f.blockGraphs
  nets : f'.nets = f.nets
  extent : ∀ limit, f'.extent limit = f.extent limit

/-- Annotating a cluster puts a cluster in its place that has as many pins and bindings. -/
theorem Reclustered.annotateCluster (h : f₁.Reclustered f)
    (hstep : (annotateCluster id).Gives f () f') :
  f₁.Reclustered f'
  := by
  obtain ⟨c, b, c', count, last, hc, hb, hselect, hpropagate, rfl⟩ :=
    gives_annotateCluster_iff.mp hstep
  have hchecked := h.checked.cluster hc hb
  obtain ⟨hselected, -⟩ := hchecked.of_selectLocalDrivers hselect
  obtain ⟨pins, order, hpins, horder, rfl⟩ := Cluster.gives_selectLocalDrivers_iff.mp hselect
  have hprimed := Cluster.primed_of_selection hpins horder hchecked.bound
  have hsame := (hprimed.ordered.propagated hpropagate).same
  have hlast := hselected.of_silent_eq hsame.symm
  have hblock := Cluster.congr_of_silent_eq (·.blockGraph) (fun _ => rfl) hsame
  have hbindings := Cluster.congr_of_silent_eq (·.locals.bindings) (fun _ => rfl) hsame
  constructor
  case checked =>
    apply h.checked.modify _ hlast
    rw [blockGraphOf, hblock]
    apply hb
  case graph => apply h.graph
  case types => apply h.types
  case nets => apply h.nets
  case extent =>
    intro limit
    rw [← h.extent limit]
    apply extent_of_modify hc
    · rw [hlast.size, hchecked.size]
    · rw [hbindings]

/-- A cluster is annotated safely, but for names without an end. -/
theorem Reclustered.safe_annotateCluster (h : f₁.Reclustered f) (hid : id ∈ f₁.clusterIds)
    (hP : ∀ b ∈ f₁.blockGraphs, ∀ e, b.Unending e → P e) :
  (Fabric.annotateCluster id).Safe P (·.Within (f₁.extent limit)) f
  := by
  have hid : id < f.clusters.size := by
    have hclusters : f.clusters.size = f₁.clusters.size := congrArg Extent.clusters (h.extent 0)
    rw [hclusters]
    apply List.mem_range.mp hid
  apply Phase.safe_state_bind
  apply Phase.safe_lift_bind (faultsIn_entry hid)
  intro c hc
  have hmem := Array.mem_of_getElem? (entry_eq_ok_iff.mp hc)
  obtain ⟨b, hb, hchecked⟩ := h.checked.clusters c hmem
  apply Phase.safe_lift_bind
  · rw [hb]
    apply faultsIn_ok
  intro b' hb'
  rw [hb] at hb'
  cases hb'
  have hblock := Array.mem_of_getElem? (entry_eq_ok_iff.mp hb)
  have hclosed := h.checked.types b hblock
  apply safe_onCluster (entry_eq_ok_iff.mp hc)
  apply Phase.Safe.bind
  · rw [h.types] at hblock
    apply Phase.Safe.imp _ (hP b hblock)
    apply Cluster.safe_selectLocalDrivers hclosed hchecked
    intro selected openPins hselected hopen
    have hpins := pins_le_of_mem hmem
    rw [hchecked.size] at hpins
    rw [← h.extent limit]
    exact ⟨Nat.le_trans hselected hpins, Nat.le_trans hopen hpins⟩
  · intro _ c' hselect
    obtain ⟨hselected, hcopies⟩ := hchecked.of_selectLocalDrivers hselect
    obtain ⟨pins, order, hpins, horder, rfl⟩ := Cluster.gives_selectLocalDrivers_iff.mp hselect
    have hprimed := Cluster.primed_of_selection hpins horder hchecked.bound
    apply Phase.safe_state_bind
    apply Phase.safe_lift_bind
    · apply hselected.faultsIn_propagatePins hclosed hcopies
      intro id hid
      rw [← hselected.size]
      apply (hprimed.complete id).mp hid
    · rintro ⟨count, last⟩ -
      apply Phase.safe_put

/-- Annotating clusters puts clusters in their places that have as many pins and bindings. -/
theorem Checked.annotateClusters (hf : f.Checked) (h : annotateClusters.Gives f () f') :
  f.Reclustered f'
  := by
  obtain ⟨_, _, hstate, h⟩ := Phase.gives_bind_iff.mp h
  obtain ⟨rfl, rfl⟩ := Phase.gives_state_iff.mp hstate
  apply Phase.each_induction h (I := f.Reclustered)
  · exact ⟨hf, rfl, rfl, rfl, fun _ => rfl⟩
  · intro id _ s s' hs hstep
    apply hs.annotateCluster hstep

/-- Clusters are annotated safely, but for names without an end. -/
theorem Checked.safe_annotateClusters (hf : f.Checked)
    (hP : ∀ b ∈ f.blockGraphs, ∀ e, b.Unending e → P e) :
  Fabric.annotateClusters.Safe P (·.Within (f.extent limit)) f
  := by
  apply Phase.safe_state_bind
  apply Phase.safe_each (I := f.Reclustered)
  · exact ⟨hf, rfl, rfl, rfl, fun _ => rfl⟩
  · intro id hid s hs
    constructor
    · apply hs.safe_annotateCluster hid hP
    · intro s' hstep
      apply hs.annotateCluster hstep

/-! ### Rounds -/

/-- A round from a steady fabric is safe, unless following links has no end. -/
theorem Primed.safe_parasiticRound (hf : f.Primed) (hsteady : f.Steady)
    (hlinks : ∀ e, f.graph.Unending e → P e) :
  Fabric.parasiticRound.Safe P (·.Within (f.extent limit)) f
  := by
  apply Phase.safe_state_bind
  apply Phase.safe_lift_bind (hf.faultsIn_exportOutputs.imp hlinks)
  rintro ⟨nodes, f₁⟩ hexport
  obtain ⟨hsame, -, -⟩ := hf.exportOutputs hexport
  apply Phase.safe_put_bind
  apply Phase.safe_lift_bind
  · obtain ⟨pins, f₂, hpropagate⟩ := hf.exists_propagateAll hsteady hexport
    rw [hpropagate]
    apply faultsIn_ok
  rintro ⟨pins, f₂⟩ hpropagate
  apply Phase.safe_put_bind
  apply Phase.safe_report_bind
  · constructor
    · apply hf.count_le_of_exportOutputs hexport
    · rw [← extent_congr hsame]
      apply (hf.of_silent_eq hsame.symm).count_le_of_propagateAll hpropagate
  · apply Phase.safe_pure

/-- The pins that the last round changed are named, unless the name of one has no end. -/
theorem Primed.faultsIn_changingPins (hf : f.Primed) (htypes : ∀ b ∈ f.blockGraphs, b.Closed)
    (hP : ∀ b ∈ f.blockGraphs, ∀ e, b.Unending e → P e) :
  FaultsIn P f.changingPins
  := by
  apply FaultsIn.bind
  · apply faultsIn_mapM
    intro c hc
    obtain ⟨i, hi⟩ := List.mem_iff_getElem?.mp hc
    rw [Array.getElem?_toList] at hi
    obtain ⟨b, hb, hprimed⟩ := hf.clusters i c hi
    have hblock := Array.mem_of_getElem? (entry_eq_ok_iff.mp hb)
    rw [changingPinsOf, hb, ok_bind]
    apply faultsIn_mapM
    intro id hid
    have hpin : id < b.pins.size := by
      rw [← hprimed.size]
      apply Cluster.lt_of_mem_changedPins hid
    apply (((htypes b hblock).faultsIn_pinName hpin).imp (hP b hblock)).bind
    rintro name -
    apply faultsIn_ok
  · rintro names -
    apply faultsIn_ok

/-- Rounds from a steady fabric are safe, unless following links or naming a pin has no end. -/
theorem Primed.safe_roundsFrom (hf : f.Primed) (hsteady : f.Steady)
    (htypes : ∀ b ∈ f.blockGraphs, b.Closed)
    (hnames : ∀ b ∈ f.blockGraphs, ∀ e, b.Unending e → P e)
    (hlinks : ∀ e, f.graph.Unending e → P e) (hmore : done + more ≤ limit) :
  (Fabric.roundsFrom done more).Safe P (·.Within (f.extent limit)) f
  := by
  induction more generalizing f done with
  | zero =>
    apply Phase.safe_state_bind
    apply Phase.safe_lift_bind (hf.faultsIn_changingPins htypes hnames)
    rintro pending -
    apply Phase.safe_report_bind trivial
    apply Phase.safe_lift
    apply faultsIn_fail
  | succ more ih =>
    apply (hf.safe_parasiticRound hsteady hlinks).bind
    intro count f₁ hround
    have hnext := hf.advanced hround
    rw [extent_congr hnext.same.symm]
    split
    · apply Phase.safe_report_bind
      · change done + 1 ≤ limit
        omega
      · apply Phase.safe_pure
    · apply ih (hnext.primed hf) (hnext.steady hf)
      · rw [blockGraphs_congr hnext.same]
        apply htypes
      · rw [blockGraphs_congr hnext.same]
        apply hnames
      · rw [unending_congr hnext.graph.symm]
        apply hlinks
      · omega

/-- Rounds end after no more than are allowed, and change nets only. -/
theorem Primed.rounds_le (hf : f.Primed) (h : (roundsFrom done more).Gives f rounds f') :
  rounds ≤ done + more ∧ f.silent = f'.silent
  := by
  induction more generalizing f done with
  | zero => simp [Fabric.roundsFrom] at h
  | succ more ih =>
    obtain ⟨count, f₁, hround, h⟩ := gives_roundsFrom_succ_iff.mp h
    have hnext := hf.advanced hround
    rcases h with ⟨-, rfl, rfl⟩ | ⟨-, h⟩
    · exact ⟨by omega, hnext.same.symm⟩
    · obtain ⟨hle, hsame⟩ := ih (hnext.primed hf) h
      exact ⟨by omega, hnext.same.symm.trans hsame⟩

/-- Parasitic nodes are found. -/
theorem Routed.faultsIn_parasiticNodes (hf : f.Routed) : FaultsIn P f.parasiticNodes := by
  apply faultsIn_filterMapM
  intro id hid
  obtain ⟨n, hn⟩ := exists_node_of_lt (List.mem_range.mp hid)
  obtain ⟨logical, hlogical⟩ := hf id n hn
  rw [hn, ok_bind, isParasitic, hlogical]
  apply faultsIn_ok

/-- There are no more parasitic nodes than nodes. -/
theorem length_parasiticNodes_le {nodes : List NodeId} (h : f.parasiticNodes = .ok nodes) :
  nodes.length ≤ f.graph.size
  := by
  have hle := length_le_of_filterMapM_eq_ok h
  rwa [RoutingGraph.ids, List.length_range] at hle

/-! ### Runs -/

/-- Nets of the first fabric have been traced, which gave the second one, and clusters of that have
been annotated. Rounds may start. -/
structure Ready (f f₁ f₂ : Fabric) : Prop where
  types : f₂.blockGraphs = f.blockGraphs
  graph : f₂.graph = f₁.graph
  extent : ∀ limit, f₂.extent limit = f.extent limit
  primed : f₂.Primed
  steady : f₂.Steady
  routed : f₂.Routed

/-- A prepared fabric is ready for rounds after nets are traced and clusters are annotated. -/
theorem ready_of_phases (hprepare : prepare.Gives f₀ () f)
    (htrace : (traceNets skip).Gives f stats f₁) (hclusters : annotateClusters.Gives f₁ () f₂) :
  f.Ready f₁ f₂
  := by
  obtain ⟨hprimed, hsteady⟩ := primed_of_phases hprepare htrace hclusters
  have hrouted := routed_of_traceNets htrace
  obtain ⟨g, rfl, -, hsize⟩ := wired_of_traceNets (bindings_of_prepare hprepare).1 htrace
  have hkept := ((checked_of_prepare hprepare).with_graph hsize).annotateClusters hclusters
  constructor
  case types => apply hkept.types
  case graph => apply hkept.graph
  case extent =>
    intro limit
    rw [hkept.extent, extent, extent, hsize]
  case primed => apply hprimed
  case steady => apply hsteady
  case routed =>
    intro q n hn
    rw [hkept.graph] at hn
    rw [hkept.nets]
    apply hrouted q n hn

/-- A run of a prepared fabric is stopped by a problem or by a walk that has no end. -/
theorem safe_annotate {o : Options} (hprepare : prepare.Gives f₀ () f)
    (hlimit : o.maxRounds = some limit) :
  (annotate o).Safe (f.Unending o.skipDedicated) (·.Within (f.extent limit)) f
  := by
  have hchecked := checked_of_prepare hprepare
  have hnames : ∀ b ∈ f.blockGraphs, ∀ e, b.Unending e → f.Unending o.skipDedicated e :=
    fun b hb e he => .inl ⟨b, hb, he⟩
  apply safe_traceNets.bind
  intro stats f₁ htrace
  apply Phase.Safe.bind
  · obtain ⟨g, rfl, -, hsize⟩ := wired_of_traceNets (bindings_of_prepare hprepare).1 htrace
    have hextent : f.extent limit = extent { f with graph := g } limit := by
      rw [extent, extent, hsize]
    rw [hextent]
    apply (hchecked.with_graph hsize).safe_annotateClusters hnames
  intro _ f₂ hclusters
  have hready := ready_of_phases hprepare htrace hclusters
  rw [← hready.extent]
  apply Phase.safe_state_bind
  rw [roundLimit, hlimit]
  apply Phase.safe_lift_bind (faultsIn_ok limit)
  rintro _ ⟨⟩
  apply Phase.Safe.bind
  · apply hready.primed.safe_roundsFrom hready.steady
    · rw [hready.types]
      apply hchecked.types
    · rw [hready.types]
      apply hnames
    · rw [hready.graph]
      exact fun e he => .inr ⟨stats, f₁, htrace, he⟩
    · rw [Nat.zero_add]
  intro rounds f₃ hrounds
  obtain ⟨hle, hsame⟩ := hready.primed.rounds_le hrounds
  rw [extent_congr hsame]
  apply Phase.safe_state_bind
  apply Phase.safe_lift_bind (hready.routed.of_silent_eq hsame).faultsIn_parasiticNodes
  intro nodes hnodes
  apply Phase.safe_report_bind
  · refine ⟨rfl, length_parasiticNodes_le hnodes, ?_⟩
    rwa [Nat.zero_add] at hle
  · apply Phase.safe_pure

/-- What a run of a prepared fabric counts in its report is there. -/
theorem within_of_annotate {o : Options} {report : Report} (hprepare : prepare.Gives f₀ () f)
    (hlimit : o.maxRounds = some limit) (h : (annotate o).Gives f report f') :
  report.Within (f.extent limit)
  := by
  simp only [annotate, Phase.gives_bind_iff, Phase.gives_state_iff, Phase.gives_lift_iff,
    Phase.gives_report_iff, Phase.gives_pure_iff] at h
  obtain ⟨stats, f₁, htrace, _, f₂, hclusters, _, _, ⟨rfl, rfl⟩, _, _, ⟨hok, rfl⟩, rounds, f₃,
    hrounds, _, _, ⟨rfl, rfl⟩, nodes, _, ⟨hnodes, rfl⟩, _, _, rfl, rfl, rfl⟩ := h
  rw [roundLimit, hlimit, Except.ok.injEq] at hok
  subst hok
  have hready := ready_of_phases hprepare htrace hclusters
  obtain ⟨hnets, hannotated⟩ := counted_of_traceNets htrace
  obtain ⟨hle, hsame⟩ := hready.primed.rounds_le hrounds
  have hextent := (hready.extent limit).symm.trans (extent_congr hsame)
  constructor
  case nets => apply hnets
  case annotated => apply hannotated
  case clusters =>
    rw [hextent]
    rfl
  case openPins =>
    rw [hextent]
    apply openPins_le
  case rounds => rwa [Nat.zero_add] at hle
  case parasiticNodes =>
    rw [hextent]
    apply length_parasiticNodes_le hnodes

end Fabric

end RoutingFabric
