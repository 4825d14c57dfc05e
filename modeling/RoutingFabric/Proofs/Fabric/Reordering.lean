import Mathlib.Logic.Equiv.Basic
import RoutingFabric.Proofs.Fabric.Identities
import RoutingFabric.Proofs.Fabric.Stale

/-!
# The order of clusters

The clusters of a fabric are annotated one after another, and in each round their outputs are moved
to the graph one after another. Where no node is covered by two outputs, the order does not matter:
in one order a run succeeds exactly when it does in another, with the same report, and it leaves
the same graph and each cluster with the same annotation.
-/

namespace RoutingFabric

/-- The pin with the index of its cluster renamed. -/
def PinAt.rename (σ : Equiv.Perm Nat) (p : PinAt) : PinAt := ⟨σ p.cluster, p.pin⟩

namespace Fabric

open Relation RoutingGraph

/-- The second fabric has the clusters of the first in another order, and is like it otherwise. -/
structure Reordered (σ : Equiv.Perm Nat) (f f' : Fabric) : Prop where
  grid : f'.grid = f.grid
  graph : f'.graph = f.graph
  blockGraphs : f'.blockGraphs = f.blockGraphs
  clusters : ∀ i : Nat, f'.clusters[i]? = f.clusters[σ i]?
  nets : f'.nets = f.nets

/-- No node is covered by two outputs. -/
def SingleCover (f : Fabric) : Prop := ∀ q p p', f.Covers p q → f.Covers p' q → p = p'

/-- The drivers of the cluster are selected and its nets propagated, which leaves the other one. -/
def AnnotatesTo (f : Fabric) (c c' : Cluster) : Prop :=
  ∃ b c₁ count, f.blockGraphOf c = .ok b
    ∧ (Cluster.selectLocalDrivers b f.graph f.nets).Gives c () c₁
    ∧ c₁.propagateNets b f.graph f.nets = .ok (count, c')

variable {σ : Equiv.Perm Nat} {f f' e e' f₀ f₁ : Fabric} {p : PinAt} {q node : NodeId} {i : Nat}
variable {b : BlockGraph} {c c' : Cluster} {count count' rounds done more : Nat} {o : Options}
variable {stats : RoutingStats} {report : Report}

/-! ### Clusters in another order -/

/-- The first fabric has the clusters of the second in another order. -/
theorem Reordered.symm (h : Reordered σ f f') : Reordered σ.symm f' f where
  grid := h.grid.symm
  graph := h.graph.symm
  blockGraphs := h.blockGraphs.symm
  clusters i := by rw [h.clusters, Equiv.apply_symm_apply]
  nets := h.nets.symm

/-- Types of clusters are found as before. -/
theorem Reordered.blockGraphOf_eq (h : Reordered σ f f') (c : Cluster) :
  f'.blockGraphOf c = f.blockGraphOf c
  := by
  rw [blockGraphOf, blockGraphOf, h.blockGraphs]

/-- Each cluster is found at its new index. -/
theorem Reordered.hasCluster_iff (h : Reordered σ f f') :
  f'.HasCluster i b c ↔ f.HasCluster (σ i) b c
  := by
  rw [HasCluster, HasCluster, h.clusters, h.blockGraphOf_eq]

/-- Outputs are bound as before. -/
theorem Reordered.outputOn_iff (h : Reordered σ f f') :
  f'.OutputOn p node ↔ f.OutputOn (p.rename σ) node
  := by
  simp only [OutputOn, h.hasCluster_iff, PinAt.rename]

/-- Outputs cover the same nodes as before. -/
theorem Reordered.covers_iff (h : Reordered σ f f') :
  f'.Covers p q ↔ f.Covers (p.rename σ) q
  := by
  simp only [Covers, h.outputOn_iff, Reaches, h.graph]

/-- Pins carry the same logical nets as before. -/
theorem Reordered.pinLogical_eq (h : Reordered σ f f') (p : PinAt) :
  f'.pinLogical p = f.pinLogical (p.rename σ)
  := by
  rw [pinLogical, pinLogical, h.clusters]
  rfl

/-- Still no node is covered by two outputs. -/
theorem Reordered.singleCover (h : Reordered σ f f') (hsingle : f.SingleCover) :
  f'.SingleCover
  := by
  intro q p p' hp hp'
  have heq := hsingle q _ _ (h.covers_iff.mp hp) (h.covers_iff.mp hp')
  obtain ⟨k, pin⟩ := p
  obtain ⟨k', pin'⟩ := p'
  simpa [PinAt.rename] using heq

/-- The fabric is still primed. -/
theorem Reordered.primed (h : Reordered σ f f') (hf : f.Primed) : f'.Primed := by
  constructor
  case wired =>
    rw [h.graph]
    apply hf.wired
  case clusters =>
    intro i c hc
    rw [h.clusters] at hc
    rw [h.blockGraphOf_eq, h.graph]
    apply hf.clusters (σ i) c hc

/-- The fabric is still steady. -/
theorem Reordered.steady (h : Reordered σ f f') (hf : f.Steady) : f'.Steady := by
  intro i b c hc
  rw [h.graph, h.nets]
  apply hf (σ i) b c (h.hasCluster_iff.mp hc)

/-- The fabric is still quiet. -/
theorem Reordered.quiet (h : Reordered σ f f') (hf : f.Quiet) : f'.Quiet := by
  intro i c hc
  rw [h.clusters] at hc
  apply hf (σ i) c hc

/-- The lists of clusters are permutations of each other. -/
theorem Reordered.perm (h : Reordered σ f f') : f'.clusters.toList.Perm f.clusters.toList := by
  have hnodup : ∀ cs : List Cluster, cs.zipIdx.Nodup := by
    intro cs
    apply List.Nodup.of_map Prod.snd
    rw [List.zipIdx_map_snd]
    exact List.nodup_range'
  -- clusters are told apart by their old indices
  have hperm : (f'.clusters.toList.zipIdx.map fun x => (x.1, σ x.2)).Perm
      f.clusters.toList.zipIdx := by
    apply (List.perm_ext_iff_of_nodup _ (hnodup _)).mpr
    · rintro ⟨c, j⟩
      simp only [List.mem_map, Prod.exists, Prod.mk.injEq, List.mem_zipIdx_iff_getElem?,
        Array.getElem?_toList, h.clusters]
      constructor
      · rintro ⟨c, i, hc, rfl, rfl⟩
        apply hc
      · intro hc
        use c, σ.symm j
        rw [Equiv.apply_symm_apply]
        exact ⟨hc, rfl, rfl⟩
    · apply List.Nodup.map _ (hnodup _)
      rintro ⟨c, i⟩ ⟨c', i'⟩ heq
      simpa using heq
  have hfst := hperm.map Prod.fst
  rw [List.map_map] at hfst
  simpa [Function.comp_def] using hfst

/-- There are as many clusters as before. -/
theorem Reordered.size_eq (h : Reordered σ f f') : f'.clusters.size = f.clusters.size := by
  simpa using h.perm.length_eq

/-- There are as many open pins as before. -/
theorem Reordered.openPins_eq (h : Reordered σ f f') : f'.openPins = f.openPins := by
  rw [openPins_eq_foldr, openPins_eq_foldr]
  apply (h.perm.map _).foldr_eq

/-- The same nodes carry parasitic nets as before. -/
theorem Reordered.parasiticNodes_eq (h : Reordered σ f f') :
  f'.parasiticNodes = f.parasiticNodes
  := by
  simp only [parasiticNodes, isParasitic, h.graph, h.nets]

/-- As many rounds are allowed as before. -/
theorem Reordered.roundLimit_eq (h : Reordered σ f f') : roundLimit o f' = roundLimit o f := by
  simp only [roundLimit, defaultRounds, maxClusterDepth, h.size_eq, h.blockGraphs]

/-- A fabric with clusters at the same places can be put in the same order. -/
theorem Reordered.exists_reordered (h : Reordered σ f f')
    (hsome : ∀ (i : Nat) c, f.clusters[i]? = some c → ∃ c', e.clusters[i]? = some c')
    (hnone : ∀ i : Nat, f.clusters[i]? = none → e.clusters[i]? = none) :
  ∃ e', Reordered σ e e'
  := by
  have hlt : ∀ i < f'.clusters.size, σ i < e.clusters.size := by
    intro i hi
    have hc := h.clusters i
    rw [Array.getElem?_eq_getElem hi] at hc
    obtain ⟨c', hc'⟩ := hsome (σ i) _ hc.symm
    apply (Array.getElem?_eq_some_iff.mp hc').1
  use { e with clusters := Array.ofFn fun i : Fin f'.clusters.size =>
    have := hlt i i.isLt
    e.clusters[σ i] }
  constructor
  case clusters =>
    intro i
    rw [Array.getElem?_ofFn]
    split
    · rename_i hi
      rw [Array.getElem?_eq_getElem (hlt i hi)]
    · rename_i hi
      have hc := h.clusters i
      rw [Array.getElem?_eq_none (Nat.not_lt.mp hi)] at hc
      rw [hnone (σ i) hc.symm]
  all_goals rfl

/-! ### Tracing nets -/

/-- Nets are traced as before. -/
theorem Reordered.traceNets {skip : Bool} (h : Reordered σ f f')
    (htrace : (traceNets skip).Gives f stats f₁) :
  ∃ f₁', (Fabric.traceNets skip).Gives f' stats f₁' ∧ Reordered σ f₁ f₁'
  := by
  obtain ⟨g, hall, rfl⟩ := gives_traceNets_iff.mp htrace
  refine ⟨{ f' with graph := g }, gives_traceNets_iff.mpr ⟨g, ?_, rfl⟩, ?_⟩
  · rw [h.graph, h.nets]
    apply hall
  · exact ⟨h.grid, rfl, h.blockGraphs, h.clusters, h.nets⟩

/-! ### Annotating clusters -/

/-- Annotating a cluster puts what it leaves of the cluster in its place. -/
theorem gives_annotateCluster_iff_annotatesTo {cs : Array Cluster} :
  (annotateCluster i).Gives { f with clusters := cs } () e ↔ ∃ c c', cs[i]? = some c
    ∧ f.AnnotatesTo c c' ∧ e = { f with clusters := cs.modify i fun _ => c' }
  := by
  rw [gives_annotateCluster_iff]
  constructor
  · rintro ⟨c, b, c₁, count, c₂, hc, hb, hselect, hpropagate, rfl⟩
    exact ⟨c, c₂, hc, ⟨b, c₁, count, hb, hselect, hpropagate⟩, rfl⟩
  · rintro ⟨c, c₂, hc, ⟨b, c₁, count, hb, hselect, hpropagate⟩, rfl⟩
    exact ⟨c, b, c₁, count, c₂, hc, hb, hselect, hpropagate, rfl⟩

/-- Annotating distinct clusters puts what it leaves of each in its place, and leaves the others as
they are. -/
theorem gives_each_annotateCluster_iff {ids : List Nat} {cs : Array Cluster} (hids : ids.Nodup) :
  (Phase.each annotateCluster ids).Gives { f with clusters := cs } () e
    ↔ ∃ cs', e = { f with clusters := cs' } ∧ (∀ i ∉ ids, cs'[i]? = cs[i]?)
      ∧ ∀ i ∈ ids, ∃ c c', cs[i]? = some c ∧ f.AnnotatesTo c c' ∧ cs'[i]? = some c'
  := by
  induction ids generalizing cs with
  | nil =>
    rw [Phase.each, Phase.gives_pure_iff]
    constructor
    · rintro ⟨-, rfl⟩
      exact ⟨cs, rfl, fun _ _ => rfl, by simp⟩
    · rintro ⟨cs', rfl, hothers, -⟩
      obtain rfl : cs' = cs := by
        apply Array.ext_getElem?
        intro i
        apply hothers i List.not_mem_nil
      exact ⟨rfl, rfl⟩
  | cons i ids ih =>
    -- the other ids are distinct from this one, so their clusters are still the old ones
    obtain ⟨hi, hnodup⟩ := List.nodup_cons.mp hids
    rw [Phase.each, Phase.gives_bind_iff]
    constructor
    · rintro ⟨_, _, hfirst, hrest⟩
      obtain ⟨c, c', hc, hannotates, rfl⟩ := gives_annotateCluster_iff_annotatesTo.mp hfirst
      obtain ⟨cs', rfl, hothers, hall⟩ := (ih hnodup).mp hrest
      refine ⟨cs', rfl, ?_, ?_⟩
      · intro k hk
        rw [List.mem_cons, not_or] at hk
        rw [hothers k hk.2, getElem?_modify_of_ne hk.1]
      · intro k hk
        rcases List.mem_cons.mp hk with rfl | hk
        · refine ⟨c, c', hc, hannotates, ?_⟩
          rw [hothers k hi, getElem?_modify_self hc]
        · obtain ⟨d, d', hd, hall⟩ := hall k hk
          rw [getElem?_modify_of_ne (ne_of_mem_of_not_mem hk hi)] at hd
          exact ⟨d, d', hd, hall⟩
    · rintro ⟨cs', rfl, hothers, hall⟩
      obtain ⟨c, c', hc, hannotates, hc'⟩ := hall i List.mem_cons_self
      have hfirst := gives_annotateCluster_iff_annotatesTo.mpr ⟨c, c', hc, hannotates, rfl⟩
      refine ⟨(), _, hfirst, (ih hnodup).mpr ⟨cs', rfl, ?_, ?_⟩⟩
      · intro k hk
        by_cases heq : k = i
        · rw [heq, hc', getElem?_modify_self hc]
        · rw [getElem?_modify_of_ne heq]
          apply hothers k
          rw [List.mem_cons, not_or]
          exact ⟨heq, hk⟩
      · intro k hk
        rw [getElem?_modify_of_ne (ne_of_mem_of_not_mem hk hi)]
        apply hall k (List.mem_cons_of_mem i hk)

/-- Annotating clusters puts what it leaves of each in its place. -/
theorem gives_annotateClusters_iff :
  annotateClusters.Gives f () e ↔ ∃ cs, e = { f with clusters := cs }
    ∧ (∀ i : Nat, f.clusters[i]? = none → cs[i]? = none)
    ∧ ∀ (i : Nat) c, f.clusters[i]? = some c → ∃ c', cs[i]? = some c' ∧ f.AnnotatesTo c c'
  := by
  have hmem : ∀ i, i ∉ f.clusterIds ↔ f.clusters[i]? = none := by
    intro i
    rw [clusterIds, List.mem_range, Array.getElem?_eq_none_iff, Nat.not_lt]
  simp only [annotateClusters, Phase.gives_bind_iff, Phase.gives_state_iff]
  constructor
  · rintro ⟨_, _, ⟨rfl, rfl⟩, h⟩
    obtain ⟨cs, rfl, hothers, hall⟩ := (gives_each_annotateCluster_iff List.nodup_range).mp h
    refine ⟨cs, rfl, ?_, ?_⟩
    · intro i hi
      rw [hothers i ((hmem i).mpr hi), hi]
    · intro i c hc
      have hi : i ∈ f.clusterIds := List.mem_range.mpr (Array.getElem?_eq_some_iff.mp hc).1
      obtain ⟨c₁, c', hc₁, hannotates, hc'⟩ := hall i hi
      rw [hc] at hc₁
      cases hc₁
      exact ⟨c', hc', hannotates⟩
  · rintro ⟨cs, rfl, hothers, hall⟩
    refine ⟨f, f, ⟨rfl, rfl⟩, (gives_each_annotateCluster_iff List.nodup_range).mpr
      ⟨cs, rfl, ?_, ?_⟩⟩
    · intro i hi
      have hnone := (hmem i).mp hi
      rw [hothers i hnone, hnone]
    · intro i hi
      have hc := Array.getElem?_eq_getElem (List.mem_range.mp hi)
      obtain ⟨c', hc', hannotates⟩ := hall i _ hc
      exact ⟨_, c', hc, hannotates, hc'⟩

/-- Clusters are annotated as before. -/
theorem Reordered.annotateClusters (h : Reordered σ f f')
    (hclusters : annotateClusters.Gives f () e) :
  ∃ e', Fabric.annotateClusters.Gives f' () e' ∧ Reordered σ e e'
  := by
  obtain ⟨cs, rfl, hothers, hall⟩ := gives_annotateClusters_iff.mp hclusters
  have hannotates : ∀ c c', f.AnnotatesTo c c' → f'.AnnotatesTo c c' := by
    intro c c' hc
    rw [AnnotatesTo, h.graph, h.nets, h.blockGraphOf_eq]
    apply hc
  obtain ⟨e', he'⟩ := h.exists_reordered (e := { f with clusters := cs }) (by
    intro i c hc
    obtain ⟨c', hc', -⟩ := hall i c hc
    use c') hothers
  refine ⟨e', gives_annotateClusters_iff.mpr ⟨e'.clusters, ?_, ?_, ?_⟩, he'⟩
  · have hgrid := he'.grid.trans h.grid.symm
    have hgraph := he'.graph.trans h.graph.symm
    have hblocks := he'.blockGraphs.trans h.blockGraphs.symm
    have hnets := he'.nets.trans h.nets.symm
    cases e'
    simp_all
  · intro i hi
    rw [h.clusters] at hi
    rw [he'.clusters]
    apply hothers (σ i) hi
  · intro i c hc
    rw [h.clusters] at hc
    obtain ⟨c', hc', hto⟩ := hall (σ i) c hc
    use c'
    rw [he'.clusters]
    exact ⟨hc', hannotates c c' hto⟩

/-- The nodes that outputs are bound to do not depend on what a run adds. -/
theorem OutputOn.of_unannotated_eq (h : f.OutputOn p node)
    (hsame : f.unannotated = f'.unannotated) :
  f'.OutputOn p node
  := by
  obtain ⟨b, c, s, ⟨hc, hb⟩, hmem, hs, houtput⟩ := h
  obtain ⟨-, -, hblocks, hclusters, -⟩ := parts_of_seen_eq hsame
  obtain ⟨c', hc', heq⟩ := exists_getElem?_of_map_eq hclusters hc
  refine ⟨b, c', s, ⟨hc', ?_⟩, ?_, hs, houtput⟩
  · rw [blockGraphOf, ← hblocks,
      ← Cluster.congr_of_unannotated_eq (·.blockGraph) (fun _ => rfl) heq]
    apply hb
  · rw [← Cluster.congr_of_unannotated_eq (·.locals.bindings) (fun _ => rfl) heq]
    apply hmem

/-- Annotating clusters does not change which nodes outputs cover. -/
theorem singleCover_of_annotateClusters (h : annotateClusters.Gives f () e)
    (hsingle : f.SingleCover) :
  e.SingleCover
  := by
  have hsame := unannotated_of_annotateClusters h
  obtain ⟨hgraph, -⟩ := graph_of_annotateClusters h
  have hcovers : ∀ p q, e.Covers p q → f.Covers p q := by
    rintro p q ⟨node, hnode, hreaches⟩
    rw [Reaches, hgraph] at hreaches
    use node, hnode.of_unannotated_eq hsame, hreaches
  intro q p p' hp hp'
  apply hsingle q p p' (hcovers p q hp) (hcovers p' q hp')

/-! ### Rounds -/

/-- What arrives at a node that a single output covers is what the output carries. -/
theorem SingleCover.arriving_eq (h : f.SingleCover) (hcovers : f.Covers p q) :
  arriving f.graph f.pinLogical q f.outlets = f.pinLogical p
  := by
  have hpin : ∀ o ∈ f.outlets, ReflTransGen f.graph.Linked o.node q → o.pin = p := by
    intro o ho hreaches
    apply h q o.pin p ⟨o.node, mem_outlets_iff.mp ho, hreaches⟩ hcovers
  cases hcarries : f.pinLogical p with
  | none =>
    apply arriving_eq_none
    intro o ho hreaches
    rw [hpin o ho hreaches, hcarries]
  | some logical =>
    obtain ⟨node, hnode, hreaches⟩ := hcovers
    apply arriving_eq_some
    · intro o ho hreaches
      rw [hpin o ho hreaches, hcarries]
    · use ⟨p, node⟩, mem_outlets_iff.mpr hnode
      apply hreaches

/-- Nothing arrives at a node that no output covers. -/
theorem arriving_eq_none_of_not_covers (h : ∀ p, ¬ f.Covers p q) :
  arriving f.graph f.pinLogical q f.outlets = none
  := by
  apply arriving_eq_none
  intro o ho hreaches
  cases h o.pin ⟨o.node, mem_outlets_iff.mp ho, hreaches⟩

/-- The same logical nets arrive as before. -/
theorem Reordered.arriving_eq (h : Reordered σ f f') (hsingle : f.SingleCover) (q : NodeId) :
  arriving f'.graph f'.pinLogical q f'.outlets = arriving f.graph f.pinLogical q f.outlets
  := by
  by_cases hcovers : ∃ p, f'.Covers p q
  · obtain ⟨p, hp⟩ := hcovers
    rw [(h.singleCover hsingle).arriving_eq hp, hsingle.arriving_eq (h.covers_iff.mp hp),
      h.pinLogical_eq]
  · rw [not_exists] at hcovers
    rw [arriving_eq_none_of_not_covers hcovers, arriving_eq_none_of_not_covers]
    intro p hp
    apply hcovers _ (h.symm.covers_iff.mp hp)

/-- Rounds leave outputs that cover the same nodes. -/
theorem SingleCover.of_silent_eq (h : f.SingleCover) (hsame : f.silent = f'.silent) :
  f'.SingleCover
  := by
  intro q p p' hp hp'
  apply h q p p' (hp.of_silent_eq hsame.symm) (hp'.of_silent_eq hsame.symm)

/-- A round can be made as before. -/
theorem Reordered.exists_round (h : Reordered σ f f') (hf : f.Primed) (hsteady : f.Steady)
    (hround : parasiticRound.Gives f count e) :
  ∃ count' e', parasiticRound.Gives f' count' e'
  := by
  obtain ⟨nodes, f₁, hexport, -⟩ := gives_parasiticRound_iff.mp hround
  have hf' := h.primed hf
  obtain ⟨nodes', f₁', hexport'⟩ : ∃ nodes' f₁', f'.exportOutputs = .ok (nodes', f₁') := by
    apply hf'.exists_exportOutputs_iff.mpr
    intro p node hnode hcarries
    rw [h.graph]
    rw [h.pinLogical_eq] at hcarries
    apply hf.exists_exportOutputs_iff.mp ⟨nodes, f₁, hexport⟩ _ node (h.outputOn_iff.mp hnode)
      hcarries
  obtain ⟨count', e', hpropagate⟩ := hf'.exists_propagateAll (h.steady hsteady) hexport'
  use count', e'
  apply gives_parasiticRound_iff.mpr
  use nodes', f₁'

/-- A round leaves the same graph as before. -/
theorem Reordered.graph_of_advanced (h : Reordered σ f f') (hf : f.Primed)
    (hsingle : f.SingleCover) (hnext : f.Advanced count e) (hnext' : f'.Advanced count' e') :
  e'.graph = e.graph
  := by
  apply RoutingGraph.eq_of_silent_eq
  · rw [← hnext'.graph, h.graph, hnext.graph]
  · intro q
    rw [hnext'.logicalAt (h.primed hf), hnext.logicalAt hf, h.arriving_eq hsingle, h.graph]

/-- A round leaves the clusters in the other order. -/
theorem Reordered.of_advanced (h : Reordered σ f f') (hf : f.Primed) (hsingle : f.SingleCover)
    (hnext : f.Advanced count e) (hnext' : f'.Advanced count' e') :
  Reordered σ e e'
  := by
  have hgraph := h.graph_of_advanced hf hsingle hnext hnext'
  constructor
  case grid =>
    rw [congr_of_silent_eq (·.grid) (fun _ => rfl) hnext'.same, h.grid,
      congr_of_silent_eq (·.grid) (fun _ => rfl) hnext.same]
  case graph => apply hgraph
  case blockGraphs =>
    rw [blockGraphs_congr hnext'.same, h.blockGraphs, blockGraphs_congr hnext.same]
  case clusters =>
    intro i
    cases hc : f'.clusters[i]? with
    | none =>
      rw [getElem?_eq_none_of_map_eq (clusters_silent_eq hnext'.same.symm) hc]
      rw [h.clusters] at hc
      rw [getElem?_eq_none_of_map_eq (clusters_silent_eq hnext.same.symm) hc]
    | some c =>
      -- both clusters come about by propagating nets in one cluster, over one graph
      obtain ⟨b, hb, -⟩ := (h.primed hf).clusters i c hc
      obtain ⟨d', n', hok', hd', -⟩ := hnext'.clusters i b c ⟨hc, hb⟩
      obtain ⟨d, n, hok, hd, -⟩ := hnext.clusters _ b c (h.hasCluster_iff.mp ⟨hc, hb⟩)
      rw [hgraph, h.nets, hok] at hok'
      cases hok'
      rw [hd, hd']
  case nets => rw [nets_congr hnext'.same, h.nets, nets_congr hnext.same]

/-- A round can be made as before, and changes an input exactly if it did before. -/
theorem Reordered.round (h : Reordered σ f f') (hf : f.Primed) (hsteady : f.Steady)
    (hsingle : f.SingleCover) (hround : parasiticRound.Gives f count e) :
  ∃ count' e', parasiticRound.Gives f' count' e' ∧ Reordered σ e e' ∧ (count = 0 ↔ count' = 0)
  := by
  obtain ⟨count', e', hround'⟩ := h.exists_round hf hsteady hround
  have hnext := hf.advanced hround
  have hnext' := (h.primed hf).advanced hround'
  have hreordered := h.of_advanced hf hsingle hnext hnext'
  refine ⟨count', e', hround', hreordered, ?_⟩
  rw [hnext.counted, hnext'.counted]
  constructor
  · apply hreordered.quiet
  · apply hreordered.symm.quiet

/-- Rounds come to an end as before. -/
theorem Reordered.roundsFrom (h : Reordered σ f f') (hf : f.Primed) (hsteady : f.Steady)
    (hsingle : f.SingleCover) (hrounds : (roundsFrom done more).Gives f rounds e) :
  ∃ e', (Fabric.roundsFrom done more).Gives f' rounds e' ∧ Reordered σ e e'
  := by
  induction more generalizing f f' done with
  | zero => simp [Fabric.roundsFrom] at hrounds
  | succ more ih =>
    obtain ⟨count, f₁, hround, hrest⟩ := gives_roundsFrom_succ_iff.mp hrounds
    obtain ⟨count', f₁', hround', hnext, hcounts⟩ := h.round hf hsteady hsingle hround
    rcases hrest with ⟨hcount, hdone, rfl⟩ | ⟨hcount, hrest⟩
    · refine ⟨f₁', ?_, hnext⟩
      apply gives_roundsFrom_succ_iff.mpr
      exact ⟨count', f₁', hround', .inl ⟨hcounts.mp hcount, hdone, rfl⟩⟩
    · have hadvanced := hf.advanced hround
      obtain ⟨e', hrest', he'⟩ := ih hnext (hadvanced.primed hf) (hadvanced.steady hf)
        (hsingle.of_silent_eq hadvanced.same.symm) hrest
      refine ⟨e', ?_, he'⟩
      apply gives_roundsFrom_succ_iff.mpr
      exact ⟨count', f₁', hround', .inr ⟨fun h => hcount (hcounts.mpr h), hrest'⟩⟩

/-! ### Runs -/

/-- Drivers are edges, and bindings fit, as before. -/
theorem Reordered.bindings (h : Reordered σ f f')
    (hf : f.graph.Connected ∧ ∀ (i : Nat) c, f.clusters[i]? = some c → f.BindingsFit c) :
  f'.graph.Connected ∧ ∀ (i : Nat) c, f'.clusters[i]? = some c → f'.BindingsFit c
  := by
  obtain ⟨hconnected, hfit⟩ := hf
  constructor
  · rw [h.graph]
    apply hconnected
  · intro i c hc
    rw [h.clusters] at hc
    rw [BindingsFit, h.blockGraphOf_eq, h.graph]
    apply hfit (σ i) c hc

/-- A fabric in which drivers are edges, and bindings fit, can be annotated in another order where no
node is covered by two outputs, with the same report. -/
theorem Reordered.annotate (h : Reordered σ f f')
    (hf : f.graph.Connected ∧ ∀ (i : Nat) c, f.clusters[i]? = some c → f.BindingsFit c)
    (hsingle : ∀ stats f₁, (Fabric.traceNets o.skipDedicated).Gives f stats f₁ → f₁.SingleCover)
    (hannotate : (annotate o).Gives f report e) :
  ∃ e', (Fabric.annotate o).Gives f' report e' ∧ Reordered σ e e'
  := by
  obtain ⟨routing, f₁, f₂, limit, rounds, nodes, htrace, hclusters, hlimit, hrounds, hnodes, rfl⟩ :=
    gives_annotate_iff.mp hannotate
  obtain ⟨hprimed, hsteady⟩ := primed_of_bindings hf htrace hclusters
  have hcover := singleCover_of_annotateClusters hclusters (hsingle routing f₁ htrace)
  obtain ⟨f₁', htrace', h₁⟩ := h.traceNets htrace
  obtain ⟨f₂', hclusters', h₂⟩ := h₁.annotateClusters hclusters
  obtain ⟨e', hrounds', he⟩ := h₂.roundsFrom hprimed hsteady hcover hrounds
  refine ⟨e', gives_annotate_iff.mpr ⟨routing, f₁', f₂', limit, rounds, nodes, htrace', hclusters',
    ?_, hrounds', ?_, ?_⟩, he⟩
  · rw [h₂.roundLimit_eq, hlimit]
  · rw [he.parasiticNodes_eq, hnodes]
  · rw [he.size_eq, he.openPins_eq]

/-- Where no node is covered by two outputs, a run of a prepared fabric gives a report exactly if a
run of the fabric with its clusters in another order does. It leaves the same graph, and the same
clusters in that order. -/
theorem reordered_of_annotate (σ : Equiv.Perm Nat) (f₀ f f' : Fabric) (o : Options)
    (hprepare : prepare.Gives f₀ () f) (h : Reordered σ f f')
    (hsingle : ∀ stats f₁, (traceNets o.skipDedicated).Gives f stats f₁ → f₁.SingleCover)
    (report : Report) :
  (∀ e, (annotate o).Gives f report e →
      ∃ e', (annotate o).Gives f' report e' ∧ Reordered σ e e')
    ∧ ∀ e', (annotate o).Gives f' report e' →
      ∃ e, (annotate o).Gives f report e ∧ Reordered σ e e'
  := by
  have hf := bindings_of_prepare hprepare
  constructor
  · intro e he
    apply h.annotate hf hsingle he
  · intro e' he'
    obtain ⟨e, he, hback⟩ := h.symm.annotate (h.bindings hf) (by
      intro stats f₁' htrace'
      obtain ⟨f₁, htrace, h₁⟩ := h.symm.traceNets htrace'
      apply h₁.symm.singleCover (hsingle stats f₁ htrace)) he'
    use e, he
    apply hback.symm

/-- A block that passes its input on. -/
def bufferBlock : BlockGraph where
  name := "buffer"
  blocks := #[{ name := "buffer", type := "buffer", modes := [⟨"default", [], [0]⟩], pins := [0, 1] }]
  pins := #[
    { block := 0, port := "in", bit := 0, kind := .input, boundary := some 0, outputs := [0] },
    { block := 0, port := "out", bit := 0, kind := .output, boundary := some 1, inputs := [0] }]
  edges := #[⟨0, 1, 0⟩]
  interconnects := #[{ name := "pass", kind := .wire, owner := 0, mode := 0, edges := [0] }]

/-- The pins of two blocks in a row, one that leads to the first, and one that the second leads to. -/
def rowGraph : RoutingGraph where
  switches := #[{ name := "switch" }]
  nodes := #[
    { kind := .outPin, low := ⟨0, 1⟩, high := ⟨0, 1⟩, ptc := 0, edges := [⟨1, 0⟩] },
    { kind := .inPin, low := ⟨1, 1⟩, high := ⟨1, 1⟩, ptc := 0, fanIn := 1 },
    { kind := .inPin, low := ⟨2, 1⟩, high := ⟨2, 1⟩, ptc := 0, fanIn := 1 },
    { kind := .inPin, low := ⟨3, 1⟩, high := ⟨3, 1⟩, ptc := 0, fanIn := 1 },
    { kind := .outPin, low := ⟨1, 1⟩, high := ⟨1, 1⟩, ptc := 1, edges := [⟨2, 0⟩] },
    { kind := .outPin, low := ⟨2, 1⟩, high := ⟨2, 1⟩, ptc := 1, edges := [⟨3, 0⟩] }]
  lookup := [0, 1, 2, 3, 4, 5]

/-- A net on each link. -/
def rowNets : NetTable where
  nets := #[
    { name := "w", logical := 0, trace := [0, 1] },
    { name := "x", logical := 1, trace := [4, 2] },
    { name := "y", logical := 2, trace := [5, 3] }]
  logicals := #[⟨"w"⟩, ⟨"x"⟩, ⟨"y"⟩]

/-- Two blocks in a row. -/
def rowFabric : Fabric where
  grid := ⟨4, 3⟩
  graph := rowGraph
  blockGraphs := #[bufferBlock]
  clusters := #[Cluster.ofType "c" 0 bufferBlock ⟨1, 1⟩, Cluster.ofType "d" 0 bufferBlock ⟨2, 1⟩]
  nets := rowNets

/-- The graph with all drivers known. -/
def indexedRow : RoutingGraph :=
  ((do RoutingGraph.buildDriverIndex; RoutingGraph.identifyDriverSwitches).run rowGraph).state

/-- The fabric after preparation. -/
def preparedRow : Fabric :=
  ((Phase.each prepareCluster [0, 1]).run { rowFabric with graph := indexedRow }).state

/-- The fabric with its blocks listed the other way round. -/
def swappedRow : Fabric := { preparedRow with clusters := preparedRow.clusters.reverse }

/-- The fabric after a run that two rounds are allowed for. -/
def annotatedRow : Fabric := ((annotate { maxRounds := some 2 }).run preparedRow).state

/-- The row after its nets are traced. -/
def tracedRow : Fabric := ((traceNets true).run preparedRow).state

/-- The fabric is prepared. -/
theorem prepare_rowFabric : prepare.Gives rowFabric () preparedRow := by
  apply prepare_of_inOrder rfl (g := indexedRow)
  · decide
  · constructor
    · decide +kernel
    · rfl
  · decide +kernel
  · constructor
    · decide +kernel
    · rfl

/-- The run succeeds. -/
theorem annotate_preparedRow :
  (annotate { maxRounds := some 2 }).Gives preparedRow ⟨⟨3, 0, 6⟩, 2, 0, 2, 4⟩ annotatedRow
  := by
  constructor
  · decide +kernel
  · rfl

/-- The one list of blocks is the other with two of them swapped. -/
theorem reordered_row : Reordered (Equiv.swap 0 1) preparedRow swappedRow where
  grid := rfl
  graph := rfl
  blockGraphs := rfl
  clusters i := by
    have hsize : preparedRow.clusters.size = 2 := by decide +kernel
    rw [swappedRow]
    match i with
    | 0 =>
      rw [Equiv.swap_apply_left, Array.getElem?_reverse (by omega), hsize]
    | 1 =>
      rw [Equiv.swap_apply_right, Array.getElem?_reverse (by omega), hsize]
    | i + 2 =>
      rw [Equiv.swap_apply_of_ne_of_ne (by omega) (by omega), Array.getElem?_eq_none,
        Array.getElem?_eq_none]
      · omega
      · rw [Array.size_reverse]
        omega
  nets := rfl

/-- The number of the block, from one on, whose output covers a node of the row. -/
def rowPlace (q : Nat) : Nat := [0, 0, 1, 2, 1, 2].getD q 0

/-- The outputs of the blocks cover the nodes of different links. -/
theorem singleCover_row : tracedRow.SingleCover := by
  have hlinks : ∀ p q : Nat, tracedRow.graph.Linked p q → rowPlace p = rowPlace q := by
    rintro p q ⟨n, s, hn, hs, rfl⟩
    have hn := entry_eq_ok_iff.mp hn
    have hsize : tracedRow.graph.nodes.size = 6 := by decide +kernel
    obtain ⟨hq, -⟩ := Array.getElem?_eq_some_iff.mp hn
    rw [hsize] at hq
    have hall : ∀ q < 6, ∀ n ∈ tracedRow.graph.nodes[q]?, ∀ s ∈ n.selected,
        rowPlace s.driver = rowPlace q := by
      decide +kernel
    apply hall q hq n hn s hs
  have hreaches : ∀ p q : Nat, tracedRow.Reaches p q → rowPlace p = rowPlace q := by
    intro p q h
    induction h with
    | refl => rfl
    | tail _ hlink ih => rw [ih, hlinks _ _ hlink]
  have houtputs : ∀ (p : PinAt) (node : Nat), tracedRow.OutputOn p node →
      p = ⟨rowPlace node - 1, 1⟩ := by
    rintro ⟨k, pin⟩ node ⟨b, c, s, ⟨hc, hb⟩, hmem, hs, houtput⟩
    have hsize : tracedRow.clusters.size = 2 := by decide +kernel
    obtain ⟨hk, -⟩ := Array.getElem?_eq_some_iff.mp hc
    rw [hsize] at hk
    have hall : ∀ k < 2, ∀ c ∈ tracedRow.clusters[k]?, tracedRow.blockGraphOf c = .ok bufferBlock
        ∧ ∀ x ∈ c.locals.bindings, ∀ s ∈ bufferBlock.pins[x.1]?, ¬ s.kind.isInput →
          x.1 = 1 ∧ k = rowPlace x.2 - 1 := by
      decide +kernel
    obtain ⟨hblock, hbindings⟩ := hall k hk c hc
    rw [hblock] at hb
    cases hb
    obtain ⟨hpin, hplace⟩ := hbindings (pin, node) hmem s (entry_eq_ok_iff.mp hs) houtput
    rw [PinAt.mk.injEq]
    exact ⟨hplace, hpin⟩
  rintro (q : Nat) p p' ⟨node, hnode, hq⟩ ⟨node', hnode', hq'⟩
  rw [houtputs p node hnode, houtputs p' node' hnode', hreaches node q hq, hreaches node' q hq']

/-- The run of the blocks listed the other way round ends alike. -/
theorem reordered_annotatedRow :
  prepare.Gives rowFabric () preparedRow
    ∧ Reordered (Equiv.swap 0 1) preparedRow swappedRow
    ∧ (∀ stats f₁, (traceNets true).Gives preparedRow stats f₁ → f₁.SingleCover)
    ∧ (annotate { maxRounds := some 2 }).Gives preparedRow ⟨⟨3, 0, 6⟩, 2, 0, 2, 4⟩ annotatedRow
    ∧ ∃ e', (annotate { maxRounds := some 2 }).Gives swappedRow ⟨⟨3, 0, 6⟩, 2, 0, 2, 4⟩ e'
      ∧ Reordered (Equiv.swap 0 1) annotatedRow e'
  := by
  have hsingle : ∀ stats f₁, (traceNets true).Gives preparedRow stats f₁ → f₁.SingleCover := by
    rintro stats f₁ ⟨-, rfl⟩
    apply singleCover_row
  obtain ⟨hforth, -⟩ := reordered_of_annotate (Equiv.swap 0 1) rowFabric preparedRow swappedRow
    { maxRounds := some 2 } prepare_rowFabric reordered_row hsingle ⟨⟨3, 0, 6⟩, 2, 0, 2, 4⟩
  exact ⟨prepare_rowFabric, reordered_row, hsingle, annotate_preparedRow,
    hforth annotatedRow annotate_preparedRow⟩

end Fabric

end RoutingFabric
