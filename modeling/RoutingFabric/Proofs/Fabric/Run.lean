import RoutingFabric.Fabric.Run
import RoutingFabric.Proofs.Cluster.Preparation
import RoutingFabric.Proofs.Cluster.Propagation
import RoutingFabric.Proofs.RoutingGraph.Annotation

/-!
# Annotated fabrics

Once a fabric is prepared and annotated, the drivers selected on the routing graph and in the
clusters are inputs of the multiplexers in front of nodes and pins, and the search for parasitic
nets leaves them alone.
-/

namespace RoutingFabric.Fabric

open RoutingGraph

/-- The drivers of the cluster at an index have been selected. -/
def ClusterDriven (f : Fabric) (id : Nat) : Prop :=
  ∀ c, f.clusters[id]? = some c → ∃ b, f.blockGraphOf c = .ok b ∧ c.Driven b

/-- The drivers of all nodes and of all clusters have been selected. -/
structure Annotated (f : Fabric) : Prop where
  nodes : f.graph.Every Node.Sound
  clusters : ∀ id, f.ClusterDriven id

/-! ### Phases on parts -/

/-- A phase on the graph changes the graph. -/
theorem gives_onGraph_iff {α : Type} {p : Phase RoutingGraph α} {f f' : Fabric} {a : α} :
  (onGraph p).Gives f a f' ↔ ∃ g, p.Gives f.graph a g ∧ f' = { f with graph := g }
  := Phase.gives_focus_iff

/-- A phase on a cluster changes that cluster. -/
theorem gives_onCluster_iff {α : Type} {p : Phase Cluster α} {f f' : Fabric} {id : Nat} {a : α} :
  (onCluster id p).Gives f a f' ↔ ∃ c c', f.clusters[id]? = some c ∧ p.Gives c a c'
    ∧ f' = { f with clusters := f.clusters.modify id fun _ => c' }
  := by
  simp only [onCluster, Phase.gives_bind_iff, Phase.gives_state_iff, Phase.gives_lift_iff,
    Phase.gives_focus_iff, entry_eq_ok_iff]
  constructor
  · rintro ⟨_, _, ⟨rfl, rfl⟩, c, _, ⟨hc, rfl⟩, c', hp, rfl⟩
    use c, c'
  · rintro ⟨c, c', hc, hp, rfl⟩
    exact ⟨f, f, ⟨rfl, rfl⟩, c, f, ⟨hc, rfl⟩, c', hp, rfl⟩

/-- Where a cluster is replaced, a cluster is the new one, or one elsewhere that stays. -/
theorem eq_or_getElem?_of_modify {cs : Array Cluster} {c c' : Cluster} {i k : Nat}
    (h : (cs.modify i fun _ => c)[k]? = some c') :
  c' = c ∨ k ≠ i ∧ cs[k]? = some c'
  := by
  rw [Array.getElem?_modify] at h
  split at h
  · obtain ⟨_, -, rfl⟩ := Option.map_eq_some_iff.mp h
    exact .inl rfl
  · rename_i hne
    exact .inr ⟨Ne.symm hne, h⟩

/-- A loop that replaces one cluster after another by one with a property leaves clusters that have
it. A second property may be needed of the clusters before, which those after then have as well. -/
theorem clusters_of_each {p : Nat → Phase Fabric Unit} {f f' : Fabric} {P Q : Cluster → Prop}
    (h : (Phase.each p f.clusterIds).Gives f () f') (hP : ∀ c ∈ f.clusters, P c)
    (hstep : ∀ i cs s, (∀ c ∈ cs, P c) → (p i).Gives { f with clusters := cs } () s →
      ∃ c, P c ∧ Q c ∧ s = { f with clusters := cs.modify i fun _ => c }) :
  ∃ cs, f' = { f with clusters := cs } ∧ ∀ c ∈ cs, P c ∧ Q c
  := by
  obtain ⟨⟨cs, rfl, hsize, hcs⟩, hall⟩ := Phase.each_establishes_of_invariant h
    (I := fun s => ∃ cs, s = { f with clusters := cs } ∧ cs.size = f.clusters.size ∧ ∀ c ∈ cs, P c)
    (Q := fun i s => ∀ c, s.clusters[i]? = some c → Q c) ⟨f.clusters, rfl, rfl, hP⟩ (by
      rintro i - _ s' ⟨cs, rfl, hsize, hcs⟩ hi
      obtain ⟨c, hPc, hQc, rfl⟩ := hstep i cs s' hcs hi
      refine ⟨⟨_, rfl, by simpa using hsize, ?_⟩, ?_, ?_⟩
      · intro c' hc'
        obtain ⟨k, hk⟩ := Array.mem_iff_getElem?.mp hc'
        rcases eq_or_getElem?_of_modify hk with rfl | ⟨-, hk⟩
        · apply hPc
        · apply hcs c' (Array.mem_of_getElem? hk)
      · intro c' hc'
        obtain rfl | ⟨hne, -⟩ := eq_or_getElem?_of_modify hc'
        · apply hQc
        · contradiction
      · intro j hj c' hc'
        rcases eq_or_getElem?_of_modify hc' with rfl | ⟨-, hc'⟩
        · apply hQc
        · apply hj c' hc')
  refine ⟨cs, rfl, ?_⟩
  intro c hc
  obtain ⟨k, hk⟩ := Array.mem_iff_getElem?.mp hc
  refine ⟨hcs c hc, hall k ?_ c hk⟩
  rw [clusterIds, List.mem_range, ← hsize]
  apply (Array.getElem?_eq_some_iff.mp hk).1

/-! ### Preparation -/

/-- Preparing a cluster prepares it for its type, and changes nothing else. -/
theorem gives_prepareCluster_iff {f f' : Fabric} {id : Nat} :
  (prepareCluster id).Gives f () f' ↔ ∃ c b c', f.clusters[id]? = some c
    ∧ f.blockGraphs[c.blockGraph]? = some b
    ∧ (Cluster.prepare b f.graph f.nets.nets.size).Gives c () c'
    ∧ f' = { f with clusters := f.clusters.modify id fun _ => c' }
  := by
  simp only [prepareCluster, Phase.gives_bind_iff, Phase.gives_state_iff, Phase.gives_lift_iff,
    entry_eq_ok_iff]
  constructor
  · rintro ⟨_, _, ⟨rfl, rfl⟩, c, _, ⟨hc, rfl⟩, h⟩
    split at h
    · rename_i b hb
      obtain ⟨_, c', hc', hprepare, rfl⟩ := gives_onCluster_iff.mp h
      rw [hc] at hc'
      cases hc'
      exact ⟨c, b, c', hc, hb, hprepare, rfl⟩
    · simp at h
  · rintro ⟨c, b, c', hc, hb, hprepare, rfl⟩
    refine ⟨f, f, ⟨rfl, rfl⟩, c, f, ⟨hc, rfl⟩, ?_⟩
    rw [hb]
    apply gives_onCluster_iff.mpr ⟨c, c', hc, hprepare, rfl⟩

/-- A fabric is prepared once drivers are known, types of clusters are found to be valid and
clusters are prepared. -/
theorem gives_prepare_iff {f f' : Fabric} :
  prepare.Gives f () f' ↔ ∃ g, (do buildDriverIndex; identifyDriverSwitches).Gives
      f.graph.buildLookup () g
    ∧ f.blockGraphs.toList.forM (fun b => b.validate) = .ok ()
    ∧ (Phase.each prepareCluster f.clusterIds).Gives { f with graph := g } () f'
  := by
  simp only [prepare, Phase.gives_bind_iff, gives_onGraph_iff, Phase.gives_state_iff,
    Phase.gives_lift_iff, Phase.gives_put_iff, Phase.gives_report_iff]
  constructor
  · rintro ⟨_, _, ⟨g, ⟨_, _, ⟨rfl, rfl⟩, _, _, rfl, hdrivers⟩, rfl⟩, _, _, ⟨rfl, rfl⟩, _, _,
      ⟨hvalid, rfl⟩, _, _, hclusters, rfl⟩
    exact ⟨g, hdrivers, hvalid, hclusters⟩
  · rintro ⟨g, hdrivers, hvalid, hclusters⟩
    exact ⟨(), _, ⟨g, ⟨_, _, ⟨rfl, rfl⟩, (), _, rfl, hdrivers⟩, rfl⟩, _, _, ⟨rfl, rfl⟩, (), _,
      ⟨hvalid, rfl⟩, (), _, hclusters, rfl⟩

/-- Preparing a cluster leaves the graph alone. -/
theorem graph_of_prepareCluster {f f' : Fabric} {id : Nat}
    (h : (prepareCluster id).Gives f () f') :
  f'.graph = f.graph
  := by
  obtain ⟨c, b, c', -, -, -, rfl⟩ := gives_prepareCluster_iff.mp h
  rfl

/-- The graph of a prepared fabric is the one before, once its nodes can be looked up, the index of
drivers is built, and the switches of drivers are found. -/
theorem graph_of_prepare {f f' : Fabric} (h : prepare.Gives f () f') :
  ∃ g, buildDriverIndex.Gives f.graph.buildLookup () g
    ∧ identifyDriverSwitches.Gives g () f'.graph
  := by
  obtain ⟨g', hdrivers, -, hclusters⟩ := gives_prepare_iff.mp h
  obtain ⟨_, g, hindex, hswitches⟩ := Phase.gives_bind_iff.mp hdrivers
  have hgraph : f'.graph = g' := by
    apply Phase.each_induction hclusters (I := fun s => s.graph = g') rfl
    intro id _ s s' hs hstep
    rw [graph_of_prepareCluster hstep, hs]
  rw [hgraph]
  exact ⟨g, hindex, hswitches⟩

/-- Nodes that are listed in order stay so when they are put in order. -/
theorem buildLookup_of_inOrder {g : RoutingGraph} (hlookup : g.lookup = g.ids)
    (h : g.ids.Pairwise fun p q => g.comesFirst p q) :
  g.buildLookup = g
  := by
  rw [buildLookup, List.mergeSort_of_pairwise h, ← hlookup]

/-- A fabric with nodes in order is prepared once drivers are known, types of clusters are found to
be valid and clusters are prepared. -/
theorem prepare_of_inOrder {f f' : Fabric} {g : RoutingGraph}
    (hlookup : f.graph.lookup = f.graph.ids)
    (hsorted : f.graph.ids.Pairwise fun p q => f.graph.comesFirst p q)
    (hindex : (do buildDriverIndex; identifyDriverSwitches).Gives f.graph () g)
    (hvalid : f.blockGraphs.toList.forM (fun b => b.validate) = .ok ())
    (hclusters : (Phase.each prepareCluster f.clusterIds).Gives { f with graph := g } () f') :
  prepare.Gives f () f'
  := by
  apply gives_prepare_iff.mpr
  rw [buildLookup_of_inOrder hlookup hsorted]
  use g

/-- A graph without nodes stays as it is when drivers come to be known. -/
theorem identify_empty : (do buildDriverIndex; identifyDriverSwitches).Gives {} () {} := by
  have hindex : buildDriverIndex.Gives {} () {} := by
    simp [buildDriverIndex, links, driverTable, size, assignDrivers, Phase.each]
  exact Phase.gives_bind_iff.mpr ⟨(), {}, hindex, rfl, rfl⟩

/-- A fabric without nodes is prepared once types of clusters are found to be valid and clusters are
prepared. -/
theorem prepare_of_empty {f f' : Fabric} (hgraph : f.graph = {})
    (hvalid : f.blockGraphs.toList.forM (fun b => b.validate) = .ok ())
    (hclusters : (Phase.each prepareCluster f.clusterIds).Gives f () f') :
  prepare.Gives f () f'
  := by
  apply prepare_of_inOrder (g := {}) _ _ _ hvalid
  · rw [← hgraph]
    apply hclusters
  · rw [hgraph]
    rfl
  · rw [hgraph]
    apply List.Pairwise.nil
  · rw [hgraph]
    apply identify_empty

/-- The types of a prepared fabric are valid, and each of its clusters has been prepared for its
type. -/
theorem checks_of_prepare {f f' : Fabric} (h : prepare.Gives f () f') :
  (∀ b ∈ f'.blockGraphs, b.validate = .ok ())
    ∧ ∀ c ∈ f'.clusters, ∃ b c₀, f'.blockGraphOf c = .ok b
      ∧ (Cluster.prepare b f'.graph f'.nets.nets.size).Gives c₀ () c
  := by
  obtain ⟨g, -, hvalid, hclusters⟩ := gives_prepare_iff.mp h
  obtain ⟨cs, rfl, hcs⟩ := clusters_of_each (f := { f with graph := g }) hclusters
    (P := fun _ => True)
    (Q := fun c => ∃ b c₀, f.blockGraphOf c = .ok b
      ∧ (Cluster.prepare b g f.nets.nets.size).Gives c₀ () c)
    (fun _ _ => trivial) (by
      intro i cs s _ hstep
      obtain ⟨c₀, b, c, -, hb, hprepare, rfl⟩ := gives_prepareCluster_iff.mp hstep
      refine ⟨c, trivial, ⟨b, c₀, ?_, hprepare⟩, rfl⟩
      rw [blockGraphOf, Cluster.blockGraph_of_prepare hprepare, entry_eq_ok_iff]
      apply hb)
  constructor
  · intro b hb
    apply forM_eq_ok_iff.mp hvalid b (Array.mem_toList_iff.mpr hb)
  · intro c hc
    apply (hcs c hc).2

/-- In a prepared fabric every node has the drivers that it declares. -/
theorem indexed_of_prepare {f f' : Fabric} (h : prepare.Gives f () f') :
  f'.graph.Every Node.Indexed
  := by
  obtain ⟨g, hindex, hswitches⟩ := graph_of_prepare h
  apply indexed_of_identifyDriverSwitches (indexed_of_buildDriverIndex hindex) hswitches

/-! ### Annotation -/

/-- Tracing nets changes the graph. -/
theorem gives_traceNets_iff {f f' : Fabric} {skip : Bool} {stats : RoutingStats} :
  (traceNets skip).Gives f stats f' ↔ ∃ g, (traceAll f.nets skip).Gives f.graph stats g
    ∧ f' = { f with graph := g }
  := by
  simp only [traceNets, Phase.gives_bind_iff, gives_onGraph_iff, Phase.gives_state_iff]
  constructor
  · rintro ⟨_, _, ⟨rfl, rfl⟩, g, htrace, rfl⟩
    use g
  · rintro ⟨g, htrace, rfl⟩
    exact ⟨f, f, ⟨rfl, rfl⟩, g, htrace, rfl⟩

/-- After nets are traced, nodes are sound if they were indexed before. -/
theorem sound_of_traceNets {f f' : Fabric} {skip : Bool} {stats : RoutingStats}
    (hf : f.graph.Every Node.Indexed) (h : (traceNets skip).Gives f stats f') :
  f'.graph.Every Node.Sound
  := by
  obtain ⟨g, htrace, rfl⟩ := gives_traceNets_iff.mp h
  apply sound_of_traceAll hf htrace

/-- Annotating a cluster selects its drivers and propagates its nets, and changes nothing else. -/
theorem gives_annotateCluster_iff {f f' : Fabric} {id : Nat} :
  (annotateCluster id).Gives f () f' ↔ ∃ c b c₁ count c₂, f.clusters[id]? = some c
    ∧ f.blockGraphOf c = .ok b ∧ (Cluster.selectLocalDrivers b f.graph f.nets).Gives c () c₁
    ∧ c₁.propagateNets b f.graph f.nets = .ok (count, c₂)
    ∧ f' = { f with clusters := f.clusters.modify id fun _ => c₂ }
  := by
  simp only [annotateCluster, Phase.gives_bind_iff, Phase.gives_state_iff, Phase.gives_lift_iff,
    Phase.gives_put_iff, gives_onCluster_iff]
  constructor
  · rintro ⟨_, _, ⟨rfl, rfl⟩, c, _, ⟨hc, rfl⟩, b, _, ⟨hb, rfl⟩, c', _, hc', ⟨_, c₁, hselect, _, _,
      ⟨rfl, rfl⟩, ⟨count, c₂⟩, _, ⟨hpropagate, rfl⟩, rfl⟩, rfl⟩
    rw [entry_eq_ok_iff, hc'] at hc
    cases hc
    exact ⟨_, b, _, count, c₂, hc', hb, hselect, hpropagate, rfl⟩
  · rintro ⟨c, b, c₁, count, c₂, hc, hb, hselect, hpropagate, rfl⟩
    refine ⟨f, f, ⟨rfl, rfl⟩, c, f, ⟨entry_eq_ok_iff.mpr hc, rfl⟩, b, f, ⟨hb, rfl⟩, c, c₂, hc, ?_, rfl⟩
    exact ⟨(), c₁, hselect, c₁, c₁, ⟨rfl, rfl⟩, (count, c₂), c₁, ⟨hpropagate, rfl⟩, rfl⟩

/-- Annotating a cluster changes nothing but that cluster, whose drivers are selected. -/
theorem driven_of_annotateCluster {f f' : Fabric} {id : Nat}
    (h : (annotateCluster id).Gives f () f') :
  ∃ c b, f.blockGraphOf c = .ok b ∧ c.Driven b
    ∧ f' = { f with clusters := f.clusters.modify id fun _ => c }
  := by
  obtain ⟨c, b, c₁, count, c₂, -, hb, hselect, hpropagate, rfl⟩ := gives_annotateCluster_iff.mp h
  have hdriven := Cluster.driven_of_selectLocalDrivers hselect
  have hsame := Cluster.sameDrivers_of_propagateNets hpropagate
  obtain ⟨pins, order, -, -, rfl⟩ := Cluster.gives_selectLocalDrivers_iff.mp hselect
  refine ⟨c₂, b, ?_, hdriven.of_same hsame, rfl⟩
  rw [blockGraphOf, hsame.blockGraph]
  apply hb

/-- Replacing a cluster by one whose drivers have been selected keeps those of others. -/
theorem ClusterDriven.modify {f : Fabric} {c : Cluster} {b : BlockGraph} {id j : Nat}
    (hj : j ≠ id → f.ClusterDriven j) (hb : f.blockGraphOf c = .ok b) (hc : c.Driven b) :
  ClusterDriven { f with clusters := f.clusters.modify id fun _ => c } j
  := by
  intro c' hc'
  rcases eq_or_getElem?_of_modify hc' with rfl | ⟨hne, hc'⟩
  · use b, hb
  · apply hj hne c' hc'

/-- After all clusters are annotated, the fabric is. -/
theorem annotated_of_annotateClusters {f f' : Fabric} (hf : f.graph.Every Node.Sound)
    (h : annotateClusters.Gives f () f') :
  f'.Annotated
  := by
  simp only [annotateClusters, Phase.gives_bind_iff, Phase.gives_state_iff] at h
  obtain ⟨_, _, ⟨rfl, rfl⟩, h⟩ := h
  obtain ⟨cs, rfl, hcs⟩ := clusters_of_each h (P := fun _ => True)
    (Q := fun c => ∃ b, f.blockGraphOf c = .ok b ∧ c.Driven b) (fun _ _ => trivial) (by
      intro i cs s _ hstep
      obtain ⟨c, b, hb, hc, rfl⟩ := driven_of_annotateCluster hstep
      exact ⟨c, trivial, ⟨b, hb, hc⟩, rfl⟩)
  constructor
  · apply hf
  · intro id c hc
    apply (hcs c (Array.mem_of_getElem? hc)).2

/-! ### Rounds -/

/-- Moving the logical net of a pin to the graph leaves nodes sound. -/
theorem sound_of_exportPin {b : BlockGraph} {c : Cluster} {g g' : RoutingGraph} {pin : PinId}
    {node : NodeId} {count : Nat} (hg : g.Every Node.Sound)
    (h : exportPin b c g pin node = .ok (count, g')) :
  g'.Every Node.Sound
  := by
  obtain ⟨p, -, h⟩ := bind_eq_ok_iff.mp h
  split at h
  · cases pure_eq_ok_iff.mp h
    apply hg
  · obtain ⟨s, -, h⟩ := bind_eq_ok_iff.mp h
    split at h
    · cases pure_eq_ok_iff.mp h
      apply hg
    · obtain ⟨⟨here, g''⟩, hgive, h⟩ := bind_eq_ok_iff.mp h
      obtain ⟨⟨beyond, g'''⟩, hforward, h⟩ := bind_eq_ok_iff.mp h
      cases pure_eq_ok_iff.mp h
      apply sound_of_forwardLogical (sound_of_giveLogical hg hgive) hforward

/-- Moving the logical nets of pins to the graph leaves nodes sound. -/
theorem sound_of_exportPins {b : BlockGraph} {c : Cluster} {g g' : RoutingGraph}
    {bindings : List (PinId × NodeId)} {count : Nat} (hg : g.Every Node.Sound)
    (h : exportPins b c g bindings = .ok (count, g')) :
  g'.Every Node.Sound
  := by
  induction bindings generalizing g count with
  | nil =>
    cases pure_eq_ok_iff.mp h
    apply hg
  | cons binding bindings ih =>
    obtain ⟨⟨here, g''⟩, hpin, h⟩ := bind_eq_ok_iff.mp h
    obtain ⟨⟨beyond, g'''⟩, hrest, h⟩ := bind_eq_ok_iff.mp h
    cases pure_eq_ok_iff.mp h
    apply ih (sound_of_exportPin hg hpin) hrest

/-- Moving the logical nets of clusters to the graph leaves nodes sound. -/
theorem sound_of_exportClusters {f : Fabric} {g g' : RoutingGraph} {cs : List Cluster}
    {count : Nat} (hg : g.Every Node.Sound) (h : exportClusters f g cs = .ok (count, g')) :
  g'.Every Node.Sound
  := by
  induction cs generalizing g count with
  | nil =>
    cases pure_eq_ok_iff.mp h
    apply hg
  | cons c cs ih =>
    obtain ⟨b, -, h⟩ := bind_eq_ok_iff.mp h
    obtain ⟨⟨here, g''⟩, hpins, h⟩ := bind_eq_ok_iff.mp h
    obtain ⟨⟨beyond, g'''⟩, hrest, h⟩ := bind_eq_ok_iff.mp h
    cases pure_eq_ok_iff.mp h
    apply ih (sound_of_exportPins hg hpins) hrest

/-- Moving the logical nets of cluster outputs to the graph keeps a fabric annotated. -/
theorem Annotated.exportOutputs {f f' : Fabric} {count : Nat} (hf : f.Annotated)
    (h : f.exportOutputs = .ok (count, f')) :
  f'.Annotated
  := by
  obtain ⟨⟨count', g⟩, hexport, h⟩ := bind_eq_ok_iff.mp h
  cases pure_eq_ok_iff.mp h
  constructor
  · apply sound_of_exportClusters hf.nodes hexport
  · apply hf.clusters

/-- Propagating nets in a cluster keeps a fabric annotated. -/
theorem Annotated.propagateCluster {f f' : Fabric} {id count : Nat} (hf : f.Annotated)
    (h : f.propagateCluster id = .ok (count, f')) :
  f'.Annotated
  := by
  obtain ⟨c, hc, h⟩ := bind_eq_ok_iff.mp h
  obtain ⟨b, hb, h⟩ := bind_eq_ok_iff.mp h
  obtain ⟨⟨count', c'⟩, hpropagate, h⟩ := bind_eq_ok_iff.mp h
  cases pure_eq_ok_iff.mp h
  have hsame := Cluster.sameDrivers_of_propagateNets hpropagate
  obtain ⟨b', hb', hdriven⟩ := hf.clusters id c (entry_eq_ok_iff.mp hc)
  constructor
  · apply hf.nodes
  · intro j
    apply ClusterDriven.modify _ _ (hdriven.of_same hsame)
    · intro _
      apply hf.clusters
    · rw [blockGraphOf, hsame.blockGraph]
      apply hb'

/-- Propagating nets in clusters keeps a fabric annotated. -/
theorem Annotated.propagateClusters {f f' : Fabric} {ids : List Nat} {count : Nat}
    (hf : f.Annotated) (h : f.propagateClusters ids = .ok (count, f')) :
  f'.Annotated
  := by
  induction ids generalizing f count with
  | nil =>
    cases pure_eq_ok_iff.mp h
    apply hf
  | cons id ids ih =>
    obtain ⟨⟨here, f''⟩, hid, h⟩ := bind_eq_ok_iff.mp h
    obtain ⟨⟨beyond, f'''⟩, hrest, h⟩ := bind_eq_ok_iff.mp h
    cases pure_eq_ok_iff.mp h
    apply ih (hf.propagateCluster hid) hrest

/-- A round keeps a fabric annotated. -/
theorem Annotated.parasiticRound {f f' : Fabric} {pins : Nat} (hf : f.Annotated)
    (h : parasiticRound.Gives f pins f') :
  f'.Annotated
  := by
  simp only [Fabric.parasiticRound, Phase.gives_bind_iff, Phase.gives_state_iff,
    Phase.gives_lift_iff, Phase.gives_put_iff, Phase.gives_report_iff, Phase.gives_pure_iff] at h
  obtain ⟨_, _, ⟨rfl, rfl⟩, ⟨nodes, f''⟩, _, ⟨hexport, rfl⟩, _, _, rfl, ⟨pins', f'''⟩, _,
    ⟨hpropagate, rfl⟩, _, _, rfl, _, _, rfl, -, rfl⟩ := h
  apply (hf.exportOutputs hexport).propagateClusters hpropagate

/-- Of one round or more the first changes no input, or is followed by the others. -/
theorem gives_roundsFrom_succ_iff {f f' : Fabric} {done more rounds : Nat} :
  (roundsFrom done (more + 1)).Gives f rounds f' ↔ ∃ count f₁, parasiticRound.Gives f count f₁
    ∧ ((count = 0 ∧ done + 1 = rounds ∧ f₁ = f')
      ∨ (count ≠ 0 ∧ (roundsFrom (done + 1) more).Gives f₁ rounds f'))
  := by
  rw [roundsFrom, Phase.gives_bind_iff]
  constructor
  · rintro ⟨count, f₁, hround, h⟩
    use count, f₁, hround
    split at h
    · rename_i hcount
      obtain ⟨_, _, hreport, h⟩ := Phase.gives_bind_iff.mp h
      obtain rfl := Phase.gives_report_iff.mp hreport
      left
      use hcount
      apply Phase.gives_pure_iff.mp h
    · rename_i hcount
      right
      use hcount
  · rintro ⟨count, f₁, hround, h⟩
    use count, f₁, hround
    rcases h with ⟨hcount, hrounds, rfl⟩ | ⟨hcount, h⟩
    · rw [if_pos hcount]
      apply Phase.gives_bind_iff.mpr
      exact ⟨(), f₁, Phase.gives_report_iff.mpr rfl, Phase.gives_pure_iff.mpr ⟨hrounds, rfl⟩⟩
    · rwa [if_neg hcount]

/-- Rounds keep a fabric annotated. -/
theorem Annotated.roundsFrom {f f' : Fabric} {done more rounds : Nat} (hf : f.Annotated)
    (h : (roundsFrom done more).Gives f rounds f') :
  f'.Annotated
  := by
  induction more generalizing f done with
  | zero => simp [Fabric.roundsFrom] at h
  | succ more ih =>
    obtain ⟨pins, f'', hround, ⟨-, -, rfl⟩ | ⟨-, h⟩⟩ := gives_roundsFrom_succ_iff.mp h
    · apply hf.parasiticRound hround
    · apply ih (hf.parasiticRound hround) h

/-- A prepared fabric that is annotated is annotated in full. -/
theorem annotated_of_annotate {f₀ f f' : Fabric} {o : Options} {report : Report}
    (hprepare : prepare.Gives f₀ () f) (h : (annotate o).Gives f report f') :
  f'.Annotated
  := by
  simp only [annotate, Phase.gives_bind_iff, Phase.gives_state_iff, Phase.gives_lift_iff,
    Phase.gives_report_iff, Phase.gives_pure_iff] at h
  obtain ⟨routing, f₁, htrace, _, f₂, hclusters, _, _, ⟨rfl, rfl⟩, limit, _, ⟨-, rfl⟩, rounds, f₃,
    hrounds, _, _, ⟨rfl, rfl⟩, nodes, _, ⟨-, rfl⟩, _, _, rfl, -, rfl⟩ := h
  have hsound := sound_of_traceNets (indexed_of_prepare hprepare) htrace
  have hannotated := annotated_of_annotateClusters hsound hclusters
  apply hannotated.roundsFrom hrounds

end RoutingFabric.Fabric
