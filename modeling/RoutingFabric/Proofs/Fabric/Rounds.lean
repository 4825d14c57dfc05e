import RoutingFabric.Proofs.Fabric.Exporting
import RoutingFabric.Proofs.Fabric.Run

/-!
# Rounds

A round moves outputs to the graph and then propagates nets in every cluster. From a steady fabric
it leads to a steady one that differs in nets only. A pin that comes to carry another logical net
has its chain end at an input whose node does. A round that changes no input changes no pin, and is
followed by a round that changes nothing at all.
-/

namespace RoutingFabric.Fabric

open Relation

/-- Each pin of each cluster has the nets that it would take. -/
def Steady (f : Fabric) : Prop := ∀ i b c, f.HasCluster i b c → c.Steady b f.graph f.nets

/-- The last round has changed no pin. -/
def Quiet (f : Fabric) : Prop := ∀ (i : Nat) c, f.clusters[i]? = some c → c.Quiet

variable {f f' f₁ f'' : Fabric} {i count rounds done more : Nat} {b : BlockGraph} {c : Cluster}
variable {ids : List Nat} {p : PinAt}

/-! ### Propagating nets in clusters -/

/-- Nets are propagated in a cluster, which takes its place. -/
theorem propagateCluster_eq_ok_iff :
  f.propagateCluster i = .ok (count, f') ↔ ∃ b c c', f.HasCluster i b c
    ∧ c.propagateNets b f.graph f.nets = .ok (count, c')
    ∧ f' = { f with clusters := f.clusters.modify i fun _ => c' }
  := by
  simp only [propagateCluster, bind_eq_ok_iff, entry_eq_ok_iff, Prod.exists, pure_eq_ok_iff,
    Prod.mk.injEq, HasCluster]
  constructor
  · rintro ⟨c, hc, b, hb, _, c', hok, rfl, rfl⟩
    exact ⟨b, c, c', ⟨hc, hb⟩, hok, rfl⟩
  · rintro ⟨b, c, c', ⟨hc, hb⟩, hok, rfl⟩
    exact ⟨c, hc, b, hb, count, c', hok, rfl, rfl⟩

/-- A cluster in the place of another one differs in nets if the cluster does. -/
theorem silent_of_modify {c' : Cluster} (hc : f.clusters[i]? = some c)
    (h : c'.silent = c.silent) :
  silent { f with clusters := f.clusters.modify i fun _ => c' } = f.silent
  := by
  simp only [silent, map_modify_of_eq hc h]

/-- Nets have been propagated in the clusters of a list. -/
structure Propagated (f : Fabric) (ids : List Nat) (count : Nat) (f' : Fabric) : Prop where
  graph : f'.graph = f.graph
  same : f'.silent = f.silent
  others : ∀ i ∉ ids, f'.clusters[i]? = f.clusters[i]?
  clusters : ∀ i ∈ ids, ∃ b c c' n, f.HasCluster i b c
    ∧ c.propagateNets b f.graph f.nets = .ok (n, c') ∧ f'.clusters[i]? = some c'
  counted : count = 0 ↔ ∀ i ∈ ids, ∀ c, f'.clusters[i]? = some c → c.Quiet

/-- A primed fabric stays so when nets change. -/
theorem Primed.of_silent_eq (hf : f.Primed) (hsame : f.silent = f'.silent) : f'.Primed := by
  have hgraph := graph_silent_eq hsame
  constructor
  · apply hf.wired.of_silent_eq hgraph
  · intro i c' hc'
    obtain ⟨c, hc, heq⟩ := exists_getElem?_of_map_eq (clusters_silent_eq hsame.symm) hc'
    obtain ⟨b, hb, hprimed⟩ := hf.clusters i c hc
    refine ⟨b, ?_, ?_⟩
    · rw [blockGraphOf, ← blockGraphs_congr hsame,
        Cluster.congr_of_silent_eq (·.blockGraph) (fun _ => rfl) heq]
      apply hb
    · rw [← RoutingGraph.size_eq_of_view_eq hgraph]
      apply hprimed.of_silent_eq heq.symm

/-- Propagating nets in distinct clusters of a primed fabric makes each of them take its nets. -/
theorem Primed.propagateClusters (hf : f.Primed) (hids : ids.Nodup)
    (h : f.propagateClusters ids = .ok (count, f')) :
  f.Propagated ids count f'
  := by
  induction ids generalizing f count with
  | nil =>
    cases pure_eq_ok_iff.mp h
    constructor <;> simp
  | cons i ids ih =>
    obtain ⟨⟨here, f''⟩, hcluster, h⟩ := bind_eq_ok_iff.mp h
    obtain ⟨⟨beyond, _⟩, hrest, h⟩ := bind_eq_ok_iff.mp h
    cases pure_eq_ok_iff.mp h
    obtain ⟨b, c, c', hc, hok, rfl⟩ := propagateCluster_eq_ok_iff.mp hcluster
    obtain ⟨hi, hnodup⟩ := List.nodup_cons.mp hids
    have hprimed := hf.cluster hc
    have hsame := silent_of_modify hc.1 (hprimed.ordered.propagated hok).same
    have hlater := ih (hf.of_silent_eq hsame.symm) hnodup hrest
    have hnew : f'.clusters[i]? = some c' := by
      rw [hlater.others i hi, getElem?_modify_self hc.1]
    constructor
    case graph => exact hlater.graph
    case same => exact hlater.same.trans hsame
    case others =>
      intro k hk
      rw [List.mem_cons, not_or] at hk
      rw [hlater.others k hk.2, getElem?_modify_of_ne hk.1]
    case clusters =>
      intro k hk
      rcases List.mem_cons.mp hk with rfl | hk
      · exact ⟨b, c, c', here, hc, hok, hnew⟩
      · obtain ⟨b₁, c₁, c₁', n, ⟨hc₁, hb₁⟩, hok₁, hnew₁⟩ := hlater.clusters k hk
        rw [getElem?_modify_of_ne (ne_of_mem_of_not_mem hk hi)] at hc₁
        exact ⟨b₁, c₁, c₁', n, ⟨hc₁, hb₁⟩, hok₁, hnew₁⟩
    case counted =>
      rw [List.forall_mem_cons, Nat.add_eq_zero_iff, hlater.counted,
        hprimed.ordered.eq_zero_iff hok]
      simp [hnew]

/-- Nets can be propagated in clusters of a steady fabric, whatever logical nets nodes come to
carry. -/
theorem Primed.exists_propagateClusters (hf : f.Primed) (hids : ids.Nodup)
    (h : ∀ i ∈ ids, ∃ b c g, f.HasCluster i b c ∧ f.graph.silent = g.silent ∧ c.Steady b g f.nets) :
  ∃ count f', f.propagateClusters ids = .ok (count, f')
  := by
  induction ids generalizing f with
  | nil => exact ⟨0, f, rfl⟩
  | cons i ids ih =>
    obtain ⟨b, c, g, hc, hgraph, hsteady⟩ := h i List.mem_cons_self
    obtain ⟨hi, hnodup⟩ := List.nodup_cons.mp hids
    have hprimed := hf.cluster hc
    obtain ⟨here, c', hok⟩ := hprimed.ordered.exists_propagateNets hsteady hgraph.symm
    have hcluster := propagateCluster_eq_ok_iff.mpr ⟨b, c, c', hc, hok, rfl⟩
    have hsame := silent_of_modify hc.1 (hprimed.ordered.propagated hok).same
    obtain ⟨beyond, f', hrest⟩ := ih (hf.of_silent_eq hsame.symm) hnodup (by
      intro k hk
      obtain ⟨b₁, c₁, g₁, ⟨hc₁, hb₁⟩, hgraph₁, hsteady₁⟩ := h k (List.mem_cons_of_mem i hk)
      refine ⟨b₁, c₁, g₁, ⟨?_, hb₁⟩, hgraph₁, hsteady₁⟩
      rw [getElem?_modify_of_ne (ne_of_mem_of_not_mem hk hi)]
      apply hc₁)
    exact ⟨_, f', bind_eq_ok_iff.mpr ⟨_, hcluster, bind_eq_ok_iff.mpr ⟨_, hrest, rfl⟩⟩⟩

/-- Propagating nets in clusters of a steady fabric without changed pins leaves the fabric as it
is. -/
theorem Primed.propagateClusters_of_quiet (hf : f.Primed) (hsteady : f.Steady) (hquiet : f.Quiet)
    (hids : ∀ i ∈ ids, i < f.clusters.size) :
  f.propagateClusters ids = .ok (0, f)
  := by
  induction ids with
  | nil => rfl
  | cons i ids ih =>
    obtain ⟨c, hc⟩ : ∃ c, f.clusters[i]? = some c :=
      ⟨_, Array.getElem?_eq_getElem (hids i List.mem_cons_self)⟩
    obtain ⟨b, hb, hprimed⟩ := hf.clusters i c hc
    have hok := hprimed.ordered.propagateNets_of_quiet (hsteady i b c ⟨hc, hb⟩) (hquiet i c hc)
    have hcluster : f.propagateCluster i = .ok (0, f) :=
      propagateCluster_eq_ok_iff.mpr ⟨b, c, c, ⟨hc, hb⟩, hok, by rw [modify_eq_self hc]⟩
    have hrest := ih fun k hk => hids k (List.mem_cons_of_mem i hk)
    exact bind_eq_ok_iff.mpr ⟨_, hcluster, bind_eq_ok_iff.mpr ⟨_, hrest, rfl⟩⟩

/-! ### One round -/

/-- A round moves outputs to the graph and then propagates nets. -/
theorem gives_parasiticRound_iff :
  parasiticRound.Gives f count f' ↔ ∃ nodes f₁, f.exportOutputs = .ok (nodes, f₁)
    ∧ f₁.propagateAll = .ok (count, f')
  := by
  simp only [parasiticRound, Phase.gives_bind_iff, Phase.gives_state_iff, Phase.gives_lift_iff,
    Phase.gives_put_iff, Phase.gives_report_iff, Phase.gives_pure_iff]
  constructor
  · rintro ⟨_, _, ⟨rfl, rfl⟩, ⟨nodes, f₁⟩, _, ⟨hexport, rfl⟩, _, _, rfl, ⟨pins, f₂⟩, _,
      ⟨hpropagate, rfl⟩, _, _, rfl, _, _, rfl, rfl, rfl⟩
    exact ⟨nodes, f₁, hexport, hpropagate⟩
  · rintro ⟨nodes, f₁, hexport, hpropagate⟩
    exact ⟨f, f, ⟨rfl, rfl⟩, (nodes, f₁), f, ⟨hexport, rfl⟩, (), f₁, rfl, (count, f'), f₁,
      ⟨hpropagate, rfl⟩, (), f', rfl, (), f', rfl, rfl, rfl⟩

/-- What a round leads to. -/
structure Advanced (f : Fabric) (count : Nat) (f' : Fabric) : Prop where
  same : f'.silent = f.silent
  exports : ∃ nodes f₁, f.exportOutputs = .ok (nodes, f₁) ∧ f'.graph = f₁.graph
  clusters : ∀ i b c, f.HasCluster i b c → ∃ c' n,
    c.propagateNets b f'.graph f.nets = .ok (n, c') ∧ f'.HasCluster i b c'
  counted : count = 0 ↔ f'.Quiet

/-- A round from a primed fabric leads on. -/
theorem Primed.advanced (hf : f.Primed) (h : parasiticRound.Gives f count f') :
  f.Advanced count f'
  := by
  obtain ⟨nodes, f₁, hexport, hpropagate⟩ := gives_parasiticRound_iff.mp h
  obtain ⟨hsame, hclusters, -⟩ := hf.exportOutputs hexport
  have hf₁ := hf.of_silent_eq hsame.symm
  have hall := hf₁.propagateClusters List.nodup_range hpropagate
  have hmem : ∀ (i : Nat) c, f₁.clusters[i]? = some c → i ∈ f₁.clusterIds := by
    intro i c hc
    apply List.mem_range.mpr (Array.getElem?_eq_some_iff.mp hc).1
  constructor
  case same => exact hall.same.trans hsame
  case exports => exact ⟨nodes, f₁, hexport, hall.graph⟩
  case clusters =>
    intro i b c hc
    have hc₁ := (hasCluster_congr hsame hclusters).mpr hc
    obtain ⟨b', c', c'', n, hc', hok, hnew⟩ := hall.clusters i (hmem i c hc₁.1)
    obtain ⟨rfl, rfl⟩ := hc₁.unique hc'
    rw [nets_congr hsame, ← hall.graph] at hok
    have hblock := Cluster.congr_of_silent_eq (·.blockGraph) (fun _ => rfl)
      ((hf₁.cluster hc').ordered.propagated hok).same
    refine ⟨c'', n, hok, hnew, ?_⟩
    rw [blockGraphOf, blockGraphs_congr hall.same, hblock]
    apply hc'.2
  case counted =>
    rw [hall.counted]
    constructor
    · intro hquiet i c hc
      apply hquiet i _ c hc
      have hi : i ∈ f'.clusterIds :=
        List.mem_range.mpr (Array.getElem?_eq_some_iff.mp hc).1
      rwa [clusterIds_congr hall.same] at hi
    · intro hquiet i _ c hc
      apply hquiet i c hc

/-- A fabric is primed after a round. -/
theorem Advanced.primed (h : f.Advanced count f') (hf : f.Primed) : f'.Primed :=
  hf.of_silent_eq h.same.symm

/-- A cluster after a round has come about by propagating nets. -/
theorem Advanced.exists_cluster {c' : Cluster} (h : f.Advanced count f')
    (hc' : f'.HasCluster i b c') :
  ∃ c n, f.HasCluster i b c ∧ c.propagateNets b f'.graph f.nets = .ok (n, c')
  := by
  obtain ⟨c, hc, -⟩ := hc'.of_silent_eq h.same
  obtain ⟨c'', n, hok, hc''⟩ := h.clusters i b c hc
  obtain ⟨-, rfl⟩ := hc'.unique hc''
  exact ⟨c, n, hc, hok⟩

/-- A round makes a fabric steady. -/
theorem Advanced.steady (h : f.Advanced count f') (hf : f.Primed) : f'.Steady := by
  intro i b c' hc'
  obtain ⟨c, n, hc, hok⟩ := h.exists_cluster hc'
  rw [nets_congr h.same]
  apply (hf.cluster hc).ordered.steady hok

/-- The graph differs in logical nets only after a round. -/
theorem Advanced.graph (h : f.Advanced count f') : f.graph.silent = f'.graph.silent :=
  graph_silent_eq h.same.symm

/-- A pin that comes to carry another logical net lies in a cluster in which it does. -/
theorem Advanced.exists_changing (h : f.Advanced count f')
    (hne : f.pinLogical p ≠ f'.pinLogical p) (hf : f.Primed) :
  ∃ b c c' n, f.HasCluster p.cluster b c ∧ f'.HasCluster p.cluster b c'
    ∧ c.propagateNets b f'.graph f.nets = .ok (n, c') ∧ c.logicalAt p.pin ≠ c'.logicalAt p.pin
  := by
  cases hc : f.clusters[p.cluster]? with
  | some c =>
    obtain ⟨b, hb, -⟩ := hf.clusters p.cluster c hc
    obtain ⟨c', n, hok, hc'⟩ := h.clusters p.cluster b c ⟨hc, hb⟩
    refine ⟨b, c, c', n, ⟨hc, hb⟩, hc', hok, ?_⟩
    simpa [pinLogical, hc, hc'.1] using hne
  | none =>
    cases hc' : f'.clusters[p.cluster]? with
    | some c' =>
      obtain ⟨b, hb, -⟩ := (h.primed hf).clusters p.cluster c' hc'
      obtain ⟨c, -, ⟨hc₁, -⟩, -⟩ := h.exists_cluster ⟨hc', hb⟩
      rw [hc] at hc₁
      cases hc₁
    | none =>
      cases hne (by simp [pinLogical, hc, hc'])

/-- A pin that comes to carry another logical net has its chain end at an input whose node does. -/
theorem Advanced.exists_input (h : f.Advanced count f') (hf : f.Primed) (hsteady : f.Steady)
    (hne : f.pinLogical p ≠ f'.pinLogical p) :
  ∃ e node, f.EndsAt p e ∧ f.InputOn e node
    ∧ f.graph.logicalAt node ≠ f'.graph.logicalAt node
  := by
  obtain ⟨b, c, c', n, hc, hc', hok, hlogical⟩ := h.exists_changing hne hf
  have hprimed := hf.cluster hc
  have hc'steady := hprimed.ordered.steady hok
  obtain ⟨e, node, hchain, hend, hinput, hnode, hgraph, -⟩ := (hsteady _ b c hc).exists_end
    hc'steady (hprimed.ordered.propagated hok).same.symm h.graph hprimed.ordered.exists_dependency
    (hprimed.ordered.grounded p.pin) hlogical
  exact ⟨⟨p.cluster, e⟩, node, ⟨rfl, b, c, hc, hchain, hend⟩, ⟨b, c, hc, hinput, hnode⟩, hgraph⟩

/-- A round that is counted changes a pin. -/
theorem Advanced.exists_pin (h : f.Advanced count f') (hf : f.Primed) (hcount : count ≠ 0) :
  ∃ p, f.pinLogical p ≠ f'.pinLogical p
  := by
  rw [Ne, h.counted, Quiet] at hcount
  simp only [Cluster.Quiet, not_forall, Bool.not_eq_false] at hcount
  obtain ⟨i, c', hc', id, hchanged⟩ := hcount
  obtain ⟨b, hb, -⟩ := (h.primed hf).clusters i c' hc'
  obtain ⟨c, n, hc, hok⟩ := h.exists_cluster ⟨hc', hb⟩
  use ⟨i, id⟩
  simpa [pinLogical, hc.1, hc'] using (((hf.cluster hc).ordered.isChanged_iff hok).mp hchanged).2

/-- A round that changes no input changes no pin. -/
theorem Advanced.pinLogical_eq (h : f.Advanced 0 f') (hf : f.Primed) (hsteady : f.Steady)
    (p : PinAt) :
  f'.pinLogical p = f.pinLogical p
  := by
  by_contra hne
  obtain ⟨b, c, c', n, hc, hc', hok, hlogical⟩ := h.exists_changing (Ne.symm hne) hf
  apply hlogical
  symm
  apply (hf.cluster hc).ordered.logicalAt_eq_of_quiet (hsteady _ b c hc) h.graph hok
  apply h.counted.mp rfl p.cluster c' hc'.1

/-- Once outputs of a steady fabric have been moved to the graph, nets can be propagated. -/
theorem Primed.exists_propagateAll {nodes : Nat} (hf : f.Primed) (hsteady : f.Steady)
    (hexport : f.exportOutputs = .ok (nodes, f₁)) :
  ∃ count f', f₁.propagateAll = .ok (count, f')
  := by
  obtain ⟨hsame, hclusters, -⟩ := hf.exportOutputs hexport
  have hf₁ := hf.of_silent_eq hsame.symm
  apply hf₁.exists_propagateClusters List.nodup_range
  intro i hi
  have hget := Array.getElem?_eq_getElem (List.mem_range.mp hi)
  obtain ⟨b, hb, -⟩ := hf₁.clusters i _ hget
  have hc := (hasCluster_congr hsame hclusters).mp ⟨hget, hb⟩
  refine ⟨b, _, f.graph, ⟨hget, hb⟩, graph_silent_eq hsame, ?_⟩
  rw [nets_congr hsame]
  apply hsteady i b _ hc

/-- A round can be made from a steady fabric if links do not lead back to nodes of outputs. -/
theorem Primed.exists_round (hf : f.Primed) (hsteady : f.Steady)
    (h : ∀ p node, f.OutputOn p node → f.pinLogical p ≠ none →
      ¬ TransGen f.graph.Linked node node) :
  ∃ count f', parasiticRound.Gives f count f'
  := by
  obtain ⟨nodes, f₁, hexport⟩ := hf.exists_exportOutputs_iff.mpr h
  obtain ⟨count, f', hpropagate⟩ := hf.exists_propagateAll hsteady hexport
  exact ⟨count, f', gives_parasiticRound_iff.mpr ⟨nodes, f₁, hexport, hpropagate⟩⟩

/-- After a round that changes no input, another round changes nothing. -/
theorem Primed.round_of_quiet (hf : f.Primed) (hsteady : f.Steady)
    (h : parasiticRound.Gives f 0 f') :
  parasiticRound.Gives f' 0 f'
  := by
  have hnext := hf.advanced h
  have hf' := hnext.primed hf
  obtain ⟨nodes, f₁, hexport, hgraph⟩ := hnext.exports
  have hpins := hnext.pinLogical_eq hf hsteady
  obtain ⟨nodes', f₂, hexport'⟩ : ∃ nodes f₂, f'.exportOutputs = .ok (nodes, f₂) := by
    apply hf'.exists_exportOutputs_iff.mpr
    intro p node hnode hcarries
    rw [hpins p] at hcarries
    rw [← RoutingGraph.linked_congr hnext.graph]
    apply hf.exists_exportOutputs_iff.mp ⟨nodes, f₁, hexport⟩ p node
      (hnode.of_silent_eq hnext.same) hcarries
  -- what is moved to the graph has been moved there before
  have hstays : f₂ = f' := by
    obtain ⟨hsame, -, -⟩ := hf'.exportOutputs hexport'
    have hlogical : ∀ q, f'.graph.logicalAt q = f₂.graph.logicalAt q := by
      intro q
      by_contra hne
      obtain ⟨p, -, hdiffers⟩ := hf.exists_output hexport hgraph hnext.same hf' hexport' hne
      apply hdiffers (hpins p).symm
    obtain ⟨⟨_, g⟩, -, hg⟩ := bind_eq_ok_iff.mp hexport'
    cases pure_eq_ok_iff.mp hg
    have hg : f'.graph = g := RoutingGraph.eq_of_silent_eq (graph_silent_eq hsame.symm) hlogical
    rw [← hg]
  rw [hstays] at hexport'
  apply gives_parasiticRound_iff.mpr
  refine ⟨nodes', f', hexport', ?_⟩
  apply hf'.propagateClusters_of_quiet (hnext.steady hf) (hnext.counted.mp rfl)
  intro i hi
  apply List.mem_range.mp hi

/-! ### Several rounds -/

/-- Rounds that come to an end end with one that changes no input. -/
theorem exists_last_of_roundsFrom (hf : f.Primed) (hsteady : f.Steady)
    (h : (roundsFrom done more).Gives f rounds f') :
  ∃ last, last.Primed ∧ last.Steady ∧ parasiticRound.Gives last 0 f' ∧ last.silent = f.silent
  := by
  induction more generalizing f done with
  | zero => simp [roundsFrom] at h
  | succ more ih =>
    obtain ⟨pins, f₁, hround, ⟨rfl, -, rfl⟩ | ⟨-, h⟩⟩ := gives_roundsFrom_succ_iff.mp h
    · exact ⟨f, hf, hsteady, hround, rfl⟩
    · have hnext := hf.advanced hround
      obtain ⟨last, hprimed, hlast, hround', hsame⟩ := ih (hnext.primed hf) (hnext.steady hf) h
      exact ⟨last, hprimed, hlast, hround', hsame.trans hnext.same⟩

end RoutingFabric.Fabric
