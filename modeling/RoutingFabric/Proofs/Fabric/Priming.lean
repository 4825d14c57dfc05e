import RoutingFabric.Proofs.Fabric.Checked
import RoutingFabric.Proofs.Fabric.Rounds

/-!
# Preparing and annotating primes a fabric

Once a fabric is prepared, the nets are traced, and the drivers of the clusters are selected, the
fabric is primed for rounds, and steady.
-/

namespace RoutingFabric

namespace Cluster

variable {b : BlockGraph} {g : RoutingGraph} {t : NetTable} {c : Cluster} {nodes : Nat}

/-- A cluster is primed once its drivers are selected. -/
theorem primed_of_selection {pins : Array PinState} {order : List PinId}
    (hpins : selectWithin b g t c (moveBound b) = .ok pins)
    (horder : propagationOrder b c pins = .ok order)
    (hbound : ∀ x ∈ c.locals.bindings, x.1 < b.pins.size ∧ x.2 < nodes) :
  Primed b nodes { c with locals := { c.locals with pins, order } }
  := by
  obtain ⟨hsize, hsorted, hcomplete⟩ := ordered_of_selection hpins horder
  exact ⟨hsize, hsorted, hcomplete, hbound⟩

end Cluster

namespace Fabric

variable {f f' f₀ f₁ f₂ f₃ : Fabric} {id : Nat} {skip : Bool} {stats : RoutingStats}

/-- The bindings of the cluster lead from pins of its type to nodes of the graph. -/
def BindingsFit (f : Fabric) (c : Cluster) : Prop :=
  ∃ b, f.blockGraphOf c = .ok b ∧ ∀ x ∈ c.locals.bindings, x.1 < b.pins.size ∧ x.2 < f.graph.size

/-! ### Preparation -/

/-- In a prepared fabric drivers are edges, and clusters have bindings. -/
theorem bindings_of_prepare (h : prepare.Gives f₀ () f) :
  f.graph.Connected ∧ ∀ (i : Nat) c, f.clusters[i]? = some c → f.BindingsFit c
  := by
  constructor
  · obtain ⟨g, hindex, hswitches⟩ := graph_of_prepare h
    apply RoutingGraph.connected_of_identifyDriverSwitches
      (RoutingGraph.connected_of_buildDriverIndex hindex) hswitches
  · intro i c hc
    obtain ⟨b, hb, hchecked⟩ := (checked_of_prepare h).clusters c (Array.mem_of_getElem? hc)
    exact ⟨b, hb, hchecked.bound⟩

/-! ### Annotation -/

/-- Tracing nets wires the graph, and changes nothing else. -/
theorem wired_of_traceNets (hf : f.graph.Connected) (h : (traceNets skip).Gives f stats f') :
  ∃ g, f' = { f with graph := g } ∧ g.Wired ∧ g.size = f.graph.size
  := by
  obtain ⟨g, htrace, rfl⟩ := gives_traceNets_iff.mp h
  have htraced := (RoutingGraph.tracedBefore_of_traceAll htrace).traced
  exact ⟨g, rfl, htraced.wired hf, RoutingGraph.size_eq_of_view_eq htraced.marked.same⟩

/-- Annotating a cluster changes that cluster, which is then primed and steady. -/
theorem primed_of_annotateCluster
    (hf : ∀ (i : Nat) c, f.clusters[i]? = some c → f.BindingsFit c)
    (h : (annotateCluster id).Gives f () f') :
  ∃ b c, f.blockGraphOf c = .ok b ∧ c.Primed b f.graph.size ∧ c.Steady b f.graph f.nets
    ∧ f.BindingsFit c ∧ f' = { f with clusters := f.clusters.modify id fun _ => c }
  := by
  obtain ⟨c, b, _, count, last, hc, hb, hselect, hpropagate, rfl⟩ := gives_annotateCluster_iff.mp h
  obtain ⟨pins, order, hpins, horder, rfl⟩ := Cluster.gives_selectLocalDrivers_iff.mp hselect
  obtain ⟨b', hb', hbound⟩ := hf id c hc
  rw [hb] at hb'
  cases hb'
  have hprimed := Cluster.primed_of_selection hpins horder hbound
  have hsame := (hprimed.ordered.propagated hpropagate).same
  have hlast := Cluster.congr_of_silent_eq (·.blockGraph) (fun _ => rfl) hsame
  have hbindings := Cluster.congr_of_silent_eq (·.locals.bindings) (fun _ => rfl) hsame
  have hblock : f.blockGraphOf last = .ok b := by
    rw [blockGraphOf, hlast]
    apply hb
  refine ⟨b, last, hblock, hprimed.of_silent_eq hsame.symm, hprimed.ordered.steady hpropagate,
    ⟨b, hblock, ?_⟩, rfl⟩
  rw [hbindings]
  apply hbound

/-- Once all clusters are annotated, a fabric is primed and steady. -/
theorem primed_of_annotateClusters (hg : f.graph.Wired)
    (hf : ∀ (i : Nat) c, f.clusters[i]? = some c → f.BindingsFit c)
    (h : annotateClusters.Gives f () f') :
  f'.Primed ∧ f'.Steady
  := by
  simp only [annotateClusters, Phase.gives_bind_iff, Phase.gives_state_iff] at h
  obtain ⟨_, _, ⟨rfl, rfl⟩, h⟩ := h
  obtain ⟨cs, rfl, hcs⟩ := clusters_of_each h (P := f.BindingsFit)
    (Q := fun c => ∃ b, f.blockGraphOf c = .ok b ∧ c.Primed b f.graph.size
      ∧ c.Steady b f.graph f.nets) (by
      intro c hc
      obtain ⟨i, hi⟩ := Array.mem_iff_getElem?.mp hc
      apply hf i c hi) (by
      intro i cs s hfit hstep
      obtain ⟨b, c, hb, hprimed, hsteady, hc, rfl⟩ := primed_of_annotateCluster
        (f := { f with clusters := cs }) (fun j c hj => hfit c (Array.mem_of_getElem? hj)) hstep
      exact ⟨c, hc, ⟨b, hb, hprimed, hsteady⟩, rfl⟩)
  constructor
  · constructor
    · apply hg
    · intro i c hc
      obtain ⟨-, b, hb, hprimed, -⟩ := hcs c (Array.mem_of_getElem? hc)
      use b
      exact ⟨hb, hprimed⟩
  · rintro i b c ⟨hc, hb⟩
    obtain ⟨-, b', hb', -, hsteady⟩ := hcs c (Array.mem_of_getElem? hc)
    obtain rfl : b = b' := Except.ok.inj (hb.symm.trans hb')
    apply hsteady

/-- A fabric in which drivers are edges, and bindings fit, is primed and steady once nets are traced
and clusters are annotated. -/
theorem primed_of_bindings
    (hf : f₁.graph.Connected ∧ ∀ (i : Nat) c, f₁.clusters[i]? = some c → f₁.BindingsFit c)
    (htrace : (traceNets skip).Gives f₁ stats f₂) (hclusters : annotateClusters.Gives f₂ () f₃) :
  f₃.Primed ∧ f₃.Steady
  := by
  obtain ⟨hconnected, hfit⟩ := hf
  obtain ⟨g, rfl, hwired, hsize⟩ := wired_of_traceNets hconnected htrace
  apply primed_of_annotateClusters hwired _ hclusters
  intro i c hc
  obtain ⟨b, hb, hbound⟩ := hfit i c hc
  refine ⟨b, hb, ?_⟩
  rw [hsize]
  apply hbound

/-- A prepared fabric is primed and steady once nets are traced and clusters are annotated. -/
theorem primed_of_phases (hprepare : prepare.Gives f₀ () f₁)
    (htrace : (traceNets skip).Gives f₁ stats f₂) (hclusters : annotateClusters.Gives f₂ () f₃) :
  f₃.Primed ∧ f₃.Steady
  := primed_of_bindings (bindings_of_prepare hprepare) htrace hclusters

end Fabric

end RoutingFabric
