import RoutingFabric.Proofs.Cluster.Stale
import RoutingFabric.Proofs.Fabric.FixedPoint

/-!
# Stale data has no influence on a run

What a fabric holds of earlier runs is overwritten before it is read. Fabrics that a snapshot does
not tell apart are prepared with one outcome, and annotated with one outcome and the same result. So
preparing a prepared fabric changes nothing, and neither does annotating an annotated one.
-/

namespace RoutingFabric.Fabric

open RoutingGraph

/-- The fabric with its graph and its clusters seen through functions, the latter with the types of
clusters at hand. -/
def seen (onGraph : RoutingGraph → RoutingGraph) (onCluster : Array BlockGraph → Cluster → Cluster)
    (f : Fabric) : Fabric :=
  { f with graph := onGraph f.graph, clusters := f.clusters.map (onCluster f.blockGraphs) }

/-- The cluster once it fits its type, without all that is derived. -/
def fit (types : Array BlockGraph) (c : Cluster) : Cluster :=
  match types[c.blockGraph]? with
  | some b => (c.fitted b).bare
  | none => c.bare

/-- The fabric once its clusters fit their types, without all that is derived. -/
def fitted (f : Fabric) : Fabric := f.seen RoutingGraph.bare fit

/-- The fabric without what the routed design adds to its graph. -/
def unrouted (f : Fabric) : Fabric := f.seen RoutingGraph.unannotated fun _ c => c

/-- The fabric without what a run adds. -/
def unannotated (f : Fabric) : Fabric :=
  f.seen RoutingGraph.unannotated fun _ => Cluster.unannotated

/-- The fabric with another cluster at an index. -/
def replace (f : Fabric) (id : Nat) (c : Cluster) : Fabric :=
  { f with clusters := f.clusters.modify id fun _ => c }

variable {f f' f₀ f₁ f₂ s t e : Fabric} {i : Nat} {c c' : Cluster} {o : Options} {report : Report}
variable {G G' : RoutingGraph → RoutingGraph} {v v' : Array BlockGraph → Cluster → Cluster}

/-! ### Fabrics that are seen the same -/

/-- What fabrics that are seen the same have in common. -/
theorem parts_of_seen_eq (h : f.seen G v = f'.seen G v) :
  f.grid = f'.grid ∧ G f.graph = G f'.graph ∧ f.blockGraphs = f'.blockGraphs
    ∧ f.clusters.map (v f.blockGraphs) = f'.clusters.map (v f.blockGraphs) ∧ f.nets = f'.nets
  := by
  injection h with hgrid hgraph hblocks hclusters hnets
  rw [← hblocks] at hclusters
  exact ⟨hgrid, hgraph, hblocks, hclusters, hnets⟩

/-- Fabrics that are seen the same are so too where less is seen of them. -/
theorem seen_eq_of_seen_eq (h : f.seen G v = f'.seen G v) (hG : ∀ g g', G g = G g' → G' g = G' g')
    (hv : ∀ types c, v' types (v types c) = v' types c) :
  f.seen G' v' = f'.seen G' v'
  := by
  obtain ⟨hgrid, hgraph, hblocks, hclusters, hnets⟩ := parts_of_seen_eq h
  have hless : ∀ cs : Array Cluster, cs.map (v' f.blockGraphs)
      = (cs.map (v f.blockGraphs)).map (v' f.blockGraphs) := by
    intro cs
    rw [Array.map_map]
    congr 1
    funext c
    apply (hv f.blockGraphs c).symm
  rw [seen, seen, ← hblocks, hless, hclusters, ← hless, hG _ _ hgraph, hgrid, hnets]

/-- Fabrics that are seen the same have as many clusters. -/
theorem clusterIds_of_seen_eq (h : f.seen G v = f'.seen G v) : f.clusterIds = f'.clusterIds := by
  obtain ⟨-, -, -, hclusters, -⟩ := parts_of_seen_eq h
  have hsize := congrArg Array.size hclusters
  rw [Array.size_map, Array.size_map] at hsize
  rw [clusterIds, clusterIds, hsize]

/-- Fabrics that are seen the same stay so when one cluster is put in place of one of each. -/
theorem seen_replace (h : f.seen G v = f'.seen G v) :
  (f.replace i c).seen G v = (f'.replace i c).seen G v
  := by
  obtain ⟨hgrid, hgraph, hblocks, hclusters, hnets⟩ := parts_of_seen_eq h
  simp only [replace, seen]
  rw [← hblocks, map_replace, map_replace, hclusters, hgraph, hgrid, hnets]

/-- What is derived for a cluster plays no part in it once it fits its type. -/
theorem fit_bare (types : Array BlockGraph) (c : Cluster) : fit types c.bare = fit types c := by
  have hblock : c.bare.blockGraph = c.blockGraph := rfl
  rw [fit, fit, hblock]
  cases types[c.blockGraph]? <;> rfl

/-- Clusters that are the same once they fit their types have one name and one type. -/
theorem name_of_fit_eq {types : Array BlockGraph} (h : fit types c = fit types c') :
  c.name = c'.name ∧ c.blockGraph = c'.blockGraph
  := by
  have hfit : ∀ c, (fit types c).name = c.name ∧ (fit types c).blockGraph = c.blockGraph := by
    intro c
    rw [fit]
    split <;> exact ⟨rfl, rfl⟩
  rw [← (hfit c).1, ← (hfit c).2, h, (hfit c').1, (hfit c').2]
  exact ⟨rfl, rfl⟩

/-- Fabrics that a snapshot does not tell apart are the same once their clusters fit their types. -/
theorem fitted_eq_of_bare_eq (h : f.bare = f'.bare) : f.fitted = f'.fitted := by
  apply seen_eq_of_seen_eq (G := RoutingGraph.bare) (v := fun _ => Cluster.bare) h
  · intro g g' hg
    apply hg
  · apply fit_bare

/-- What a run adds plays no part in a fabric once its clusters fit their types. -/
theorem fitted_eq_of_unannotated_eq (h : f.unannotated = f'.unannotated) :
  f.fitted = f'.fitted
  := by
  apply seen_eq_of_seen_eq (G := RoutingGraph.unannotated) (v := fun _ => Cluster.unannotated) h
  · intro g g' hg
    apply bare_eq_of_view_eq (r := Node.unannotated) hg
    intro n
    rfl
  · intro types c
    rw [← fit_bare types c, ← fit_bare]
    rfl

/-- Fabrics that are the same without what the routed design adds are so without what a run adds. -/
theorem unannotated_eq_of_unrouted_eq (h : f.unrouted = f'.unrouted) :
  f.unannotated = f'.unannotated
  := by
  apply seen_eq_of_seen_eq (G := RoutingGraph.unannotated) (v := fun _ c => c) h
  · intro g g' hg
    apply hg
  · intro types c
    rfl

/-- Fabrics that differ in nets only are the same without what a run adds. -/
theorem unannotated_eq_of_silent_eq (h : f.silent = f'.silent) :
  f.unannotated = f'.unannotated
  := by
  apply seen_eq_of_seen_eq (G := RoutingGraph.silent) (v := fun _ => Cluster.silent) h
  · intro g g' hg
    apply view_eq_of_view_eq (r := Node.silent) hg
    intro n
    rfl
  · intro types c
    rfl

/-! ### Two runs of phases on parts -/

/-- Runs on one cluster of two fabrics put one cluster in place of both. -/
theorem agree_onCluster {p q : Phase Cluster Unit} (hc : f.clusters[i]? = some c)
    (hc' : f'.clusters[i]? = some c') (h : p.Agree Eq c q c') :
  (onCluster i p).Agree (fun s t => ∃ d, s = f.replace i d ∧ t = f'.replace i d) f
    (onCluster i q) f'
  := by
  apply Phase.agree_state_bind
  rw [entry_eq_ok_iff.mpr hc, entry_eq_ok_iff.mpr hc']
  apply Phase.agree_ok_bind
  apply (Phase.agree_focus h).imp
  rintro s' t' ⟨d, _, rfl, rfl, rfl⟩
  exact ⟨d, rfl, rfl⟩

/-- Where one cluster is put in place of one of each of two fabrics, these have the same clusters
there, and elsewhere where they had before. -/
theorem getElem?_replace (hc : f.clusters[i]? = some c) (hc' : f'.clusters[i]? = some c')
    {d : Cluster} {j : Nat} (h : j ≠ i → f.clusters[j]? = f'.clusters[j]?) :
  (f.replace i d).clusters[j]? = (f'.replace i d).clusters[j]?
  := by
  rw [replace, replace, Array.getElem?_modify, Array.getElem?_modify]
  split
  · rename_i heq
    subst heq
    rw [hc, hc']
    rfl
  · rename_i hne
    apply h (Ne.symm hne)

/-- Fabrics that are seen the same, with the same cluster at each place, have the same clusters. -/
theorem clusters_eq_of_getElem? (h : s.seen G v = t.seen G v)
    (hall : ∀ i < s.clusters.size, s.clusters[i]? = t.clusters[i]?) :
  s.clusters = t.clusters
  := by
  obtain ⟨-, -, -, hclusters, -⟩ := parts_of_seen_eq h
  apply Array.ext_getElem?
  intro i
  cases hc : s.clusters[i]? with
  | none => rw [getElem?_eq_none_of_map_eq hclusters hc]
  | some c =>
    rw [← hc]
    apply hall i (Array.getElem?_eq_some_iff.mp hc).1

/-- A loop that puts one cluster in place of each of two fabrics makes their clusters the same. -/
theorem agree_each_cluster {p : Nat → Phase Fabric Unit} (h : s.seen G v = t.seen G v)
    (hstep : ∀ i f f' c c', f.seen G v = f'.seen G v → f.clusters[i]? = some c →
      f'.clusters[i]? = some c' → v f.blockGraphs c = v f.blockGraphs c' →
      (p i).Agree (fun s t => ∃ d, s = f.replace i d ∧ t = f'.replace i d) f (p i) f') :
  (Phase.each p s.clusterIds).Agree (fun s' t' => s'.seen G v = t'.seen G v
    ∧ s'.clusters = t'.clusters) s (Phase.each p t.clusterIds) t
  := by
  rw [← clusterIds_of_seen_eq h]
  refine (Phase.agree_each
    (R := fun s' t' => s'.seen G v = t'.seen G v ∧ s'.clusters.size = s.clusters.size)
    (Q := fun i s' t' => s'.clusters[i]? = t'.clusters[i]?) ⟨h, rfl⟩ ?_).imp ?_
  · rintro i hi f f' ⟨hsame, hsize⟩
    have hc := Array.getElem?_eq_getElem (hsize ▸ List.mem_range.mp hi)
    obtain ⟨-, -, -, hclusters, -⟩ := parts_of_seen_eq hsame
    obtain ⟨c', hc', heq⟩ := exists_getElem?_of_map_eq hclusters hc
    apply (hstep i f f' _ c' hsame hc hc' heq).imp
    rintro s' t' ⟨d, rfl, rfl⟩
    refine ⟨⟨seen_replace hsame, ?_⟩, ?_, ?_⟩
    · rw [replace, Array.size_modify, hsize]
    · apply getElem?_replace hc hc'
      intro hne
      contradiction
    · intro j hj
      apply getElem?_replace hc hc'
      intro _
      apply hj
  · rintro s' t' ⟨⟨hsame, hsize⟩, hall, -⟩
    refine ⟨hsame, clusters_eq_of_getElem? hsame ?_⟩
    intro i hi
    apply hall i
    rw [clusterIds, List.mem_range, ← hsize]
    apply hi

/-! ### Two preparations -/

/-- A cluster is prepared alike in fabrics that are the same once their clusters fit their types. -/
theorem agree_prepareCluster (h : f.seen RoutingGraph.unannotated fit
    = f'.seen RoutingGraph.unannotated fit) (hc : f.clusters[i]? = some c)
    (hc' : f'.clusters[i]? = some c') (hfit : fit f.blockGraphs c = fit f.blockGraphs c') :
  (prepareCluster i).Agree (fun s t => ∃ d, s = f.replace i d ∧ t = f'.replace i d) f
    (prepareCluster i) f'
  := by
  obtain ⟨-, hgraph, hblocks, -, hnets⟩ := parts_of_seen_eq h
  obtain ⟨hname, hblock⟩ := name_of_fit_eq hfit
  apply Phase.agree_state_bind
  rw [entry_eq_ok_iff.mpr hc, entry_eq_ok_iff.mpr hc']
  apply Phase.agree_ok_bind
  rw [fit, fit, ← hblock] at hfit
  rw [← hblocks, ← hblock, ← hname, ← hnets]
  cases hb : f.blockGraphs[c.blockGraph]? with
  | none => apply Phase.agree_stop
  | some b =>
    rw [hb] at hfit
    apply agree_onCluster hc hc'
    apply Cluster.agree_prepare hfit hgraph

/-- Fabrics that are the same once their clusters fit their types are prepared alike. -/
theorem agree_prepare (h : f.fitted = f'.fitted) :
  prepare.Agree (fun s t => s.unrouted = t.unrouted) f prepare f'
  := by
  obtain ⟨hgrid, hgraph, hblocks, hclusters, hnets⟩ := parts_of_seen_eq h
  apply Phase.Agree.bind
  · apply Phase.agree_focus (S := fun g g' => g.unannotated = g'.unannotated)
    apply Phase.agree_state_bind
    apply Phase.agree_put_bind
    apply RoutingGraph.agree_prepare hgraph
  rintro _ _ _ ⟨g, g', hunannotated, rfl, rfl⟩
  apply Phase.agree_state_bind
  apply Phase.agree_lift_bind_of_eq
  · rw [hblocks]
  rintro _ -
  apply Phase.Agree.bind
  · apply agree_each_cluster (G := RoutingGraph.unannotated) (v := fit)
    · simp only [seen]
      rw [hunannotated, ← hblocks, hclusters, hgrid, hnets]
    · intro i s t c c'
      apply agree_prepareCluster
  rintro _ s t ⟨hsame, hclusters⟩
  apply Phase.agree_report
  obtain ⟨hgrid, hgraph, hblocks, -, hnets⟩ := parts_of_seen_eq hsame
  rw [unrouted, unrouted, seen, seen, hgrid, hgraph, hblocks, hclusters, hnets]

/-- Preparing a fabric lets its clusters fit their types, and changes nothing else but what is
derived. What the routed design adds to the graph stays. -/
theorem fitted_of_prepare (h : prepare.Gives f () f') :
  f'.fitted = f.fitted ∧ f'.graph.nodes.map Node.undriven = f.graph.nodes.map Node.undriven
  := by
  obtain ⟨g, hdrivers, -, hclusters⟩ := gives_prepare_iff.mp h
  have hundriven := undriven_of_prepare hdrivers
  have hbare : g.bare = f.graph.buildLookup.bare := bare_eq_of_view_eq hundriven fun _ => rfl
  obtain ⟨hgraph, hfitted⟩ : f'.graph = g ∧ f'.fitted = fitted { f with graph := g } := by
    apply Phase.each_induction hclusters (I := fun s => s.graph = g
      ∧ s.fitted = fitted { f with graph := g }) ⟨rfl, rfl⟩
    rintro i - s s' ⟨hgraph, hfitted⟩ hstep
    obtain ⟨c, b, c', hc, hb, hprepare, rfl⟩ := gives_prepareCluster_iff.mp hstep
    refine ⟨hgraph, ?_⟩
    rw [← hfitted]
    have hfit : fit s.blockGraphs c' = fit s.blockGraphs c := by
      rw [fit, fit, Cluster.blockGraph_of_prepare hprepare, hb]
      apply Cluster.fitted_of_prepare hprepare
    simp only [fitted, seen]
    rw [map_modify_of_eq hc hfit]
  constructor
  · rw [hfitted, fitted, fitted, seen, seen]
    simp only
    rw [hbare]
    rfl
  · rw [hgraph]
    exact congrArg RoutingGraph.nodes hundriven

/-- Preparing a prepared fabric changes nothing. -/
theorem prepare_of_prepare (h : prepare.Gives f () f') : prepare.Gives f' () f' := by
  obtain ⟨hfitted, -⟩ := fitted_of_prepare h
  obtain ⟨f'', h', hsame⟩ := (agree_prepare hfitted.symm).exists_gives h
  -- the two results differ in what the routed design adds at most, and that neither of them changed
  obtain ⟨-, hundriven⟩ := fitted_of_prepare h'
  obtain ⟨hgrid, hgraph, hblocks, hclusters, hnets⟩ := parts_of_seen_eq hsame
  have hgraph := eq_of_unannotated_eq hgraph hundriven.symm
  rw [Array.map_id', Array.map_id'] at hclusters
  obtain rfl : f' = f'' := by
    cases f'
    cases f''
    simp_all
  apply h'

/-! ### Two annotations -/

/-- Nets are traced alike in fabrics that are the same without what a run adds. -/
theorem agree_traceNets {skip : Bool} (h : f.unannotated = f'.unannotated) :
  (traceNets skip).Agree (fun s t => s.graph = t.graph ∧ s.unannotated = t.unannotated) f
    (traceNets skip) f'
  := by
  obtain ⟨hgrid, hgraph, hblocks, hclusters, hnets⟩ := parts_of_seen_eq h
  apply Phase.agree_state_bind
  rw [hnets]
  apply (Phase.agree_focus (agree_traceAll hgraph)).imp
  rintro _ _ ⟨g, _, rfl, rfl, rfl⟩
  refine ⟨rfl, ?_⟩
  simp only [unannotated, seen]
  rw [hgrid, hblocks, hclusters, hnets]

/-- A cluster is annotated alike in fabrics that are the same without what annotating clusters adds.
-/
theorem agree_annotateCluster (h : f.seen id (fun _ => Cluster.unannotated)
    = f'.seen id (fun _ => Cluster.unannotated)) (hc : f.clusters[i]? = some c)
    (hc' : f'.clusters[i]? = some c') (hsame : c.unannotated = c'.unannotated) :
  (annotateCluster i).Agree (fun s t => ∃ d, s = f.replace i d ∧ t = f'.replace i d) f
    (annotateCluster i) f'
  := by
  obtain ⟨-, hgraph, hblocks, -, hnets⟩ := parts_of_seen_eq h
  have hblock := Cluster.congr_of_unannotated_eq (·.blockGraph) (fun _ => rfl) hsame
  apply Phase.agree_state_bind
  rw [entry_eq_ok_iff.mpr hc, entry_eq_ok_iff.mpr hc']
  apply Phase.agree_ok_bind
  apply Phase.agree_lift_bind_of_eq
  · rw [blockGraphOf, blockGraphOf, hblocks, hblock]
  rintro b -
  apply agree_onCluster hc hc'
  simp only [id] at hgraph
  rw [← hgraph, ← hnets]
  apply (Cluster.agree_selectLocalDrivers hsame).bind
  rintro _ d _ rfl
  apply Phase.agree_self

/-- Fabrics that are the same without what a run adds are annotated alike. -/
theorem agree_annotate (h : f.unannotated = f'.unannotated) :
  (annotate o).Agree Eq f (annotate o) f'
  := by
  apply (agree_traceNets h).bind
  rintro stats s t ⟨hgraph, hsame⟩
  apply Phase.Agree.bind
  · apply Phase.agree_state_bind
    apply agree_each_cluster (G := id) (v := fun _ => Cluster.unannotated)
    · obtain ⟨hgrid, -, hblocks, hclusters, hnets⟩ := parts_of_seen_eq hsame
      simp only [seen, id]
      rw [hgrid, hgraph, hblocks, hclusters, hnets]
    · intro i s t c c'
      apply agree_annotateCluster
  rintro _ s t ⟨hseen, hclusters⟩
  obtain rfl : s = t := by
    obtain ⟨hgrid, hgraph, hblocks, -, hnets⟩ := parts_of_seen_eq hseen
    cases s
    cases t
    simp_all
  -- from here on the two runs are one
  apply Phase.agree_self

/-- Tracing nets changes what the routed design adds to the graph only. -/
theorem unannotated_of_traceNets {skip : Bool} {stats : RoutingStats}
    (h : (traceNets skip).Gives f stats f') :
  f'.unannotated = f.unannotated
  := by
  obtain ⟨g, htrace, rfl⟩ := gives_traceNets_iff.mp h
  have hsame := (tracedBefore_of_traceAll htrace).traced.marked.same
  simp only [unannotated, seen, hsame]

/-- Annotating clusters changes the states of their pins and the orders of these only. -/
theorem unannotated_of_annotateClusters (h : annotateClusters.Gives f () f') :
  f'.unannotated = f.unannotated
  := by
  obtain ⟨_, _, hstate, h⟩ := Phase.gives_bind_iff.mp h
  obtain ⟨rfl, rfl⟩ := Phase.gives_state_iff.mp hstate
  apply Phase.each_induction h (I := fun s => s.unannotated = f.unannotated) rfl
  intro i _ s s' hs hstep
  obtain ⟨c, b, c₁, count, c₂, hc, -, hselect, hpropagate, rfl⟩ :=
    gives_annotateCluster_iff.mp hstep
  obtain ⟨pins, order, -, -, rfl⟩ := Cluster.gives_selectLocalDrivers_iff.mp hselect
  have hsame : c₂.unannotated = c.unannotated :=
    (Cluster.unannotated_of_propagatePins hpropagate).trans rfl
  rw [← hs]
  simp only [unannotated, seen, map_modify_of_eq hc hsame]

/-- Annotating a prepared fabric adds what a run adds, and changes nothing else. -/
theorem unannotated_of_annotate (hprepare : prepare.Gives f₀ () f)
    (h : (annotate o).Gives f report e) :
  e.unannotated = f.unannotated
  := by
  obtain ⟨stats, f₁, f₂, limit, rounds, htrace, hclusters, -, hrounds⟩ :=
    exists_phases_of_annotate h
  obtain ⟨hprimed, hsteady⟩ := primed_of_phases hprepare htrace hclusters
  obtain ⟨last, hlast, hlastSteady, hround, hsame⟩ :=
    exists_last_of_roundsFrom hprimed hsteady hrounds
  calc e.unannotated
    _ = f₂.unannotated :=
      unannotated_eq_of_silent_eq ((hlast.advanced hround).same.trans hsame)
    _ = f₁.unannotated := unannotated_of_annotateClusters hclusters
    _ = f.unannotated := unannotated_of_traceNets htrace

/-- Annotating an annotated fabric once more changes nothing, whether or not it is prepared again.
-/
theorem annotate_of_annotate (hprepare : prepare.Gives f₀ () f)
    (h : (annotate o).Gives f report e) :
  (annotate o).Gives e report e ∧ ∃ g, prepare.Gives e () g ∧ (annotate o).Gives g report e
  := by
  have hsame := unannotated_of_annotate hprepare h
  constructor
  · obtain ⟨_, h', rfl⟩ := (agree_annotate hsame.symm).exists_gives h
    apply h'
  · have hfitted : e.fitted = f₀.fitted :=
      (fitted_eq_of_unannotated_eq hsame).trans (fitted_of_prepare hprepare).1
    obtain ⟨g, hprepare', hunrouted⟩ := (agree_prepare hfitted.symm).exists_gives hprepare
    obtain ⟨_, h', rfl⟩ := (agree_annotate (unannotated_eq_of_unrouted_eq hunrouted)).exists_gives h
    exact ⟨g, hprepare', h'⟩

/-! ### Runs -/

/-- Fabrics that a snapshot does not tell apart are prepared with one outcome. Once prepared they
are annotated with one outcome, and become one fabric if they are. Preparing or annotating that once
more changes nothing. -/
theorem gives_of_bare_eq (o : Options) (f₁ f₂ : Fabric) (h : f₁.bare = f₂.bare) :
  (prepare.run f₁).outcome = (prepare.run f₂).outcome
    ∧ ∀ g₁ g₂, prepare.Gives f₁ () g₁ → prepare.Gives f₂ () g₂ →
      ((annotate o).run g₁).outcome = ((annotate o).run g₂).outcome
      ∧ prepare.Gives g₁ () g₁
      ∧ ∀ report e, (annotate o).Gives g₁ report e →
        (annotate o).Gives g₂ report e
        ∧ (annotate o).Gives e report e
        ∧ ∃ g, prepare.Gives e () g ∧ (annotate o).Gives g report e
  := by
  have hprepare := agree_prepare (fitted_eq_of_bare_eq h)
  use hprepare.outcome
  intro g₁ g₂ hg₁ hg₂
  have hunrouted := hprepare.states () g₁ g₂ hg₁ hg₂
  have hannotate := agree_annotate (o := o) (unannotated_eq_of_unrouted_eq hunrouted)
  refine ⟨hannotate.outcome, prepare_of_prepare hg₁, ?_⟩
  intro report e he
  refine ⟨?_, annotate_of_annotate hg₁ he⟩
  obtain ⟨_, he₂, rfl⟩ := hannotate.exists_gives he
  apply he₂

/-- The fabric with data of other runs, none of which fit it. -/
def staleLadder : Fabric :=
  { ladderFabric with
    graph := { ladderGraph with
      nodes := ladderGraph.nodes.map fun n =>
        { n with
          drivers := [⟨9, 0, 0⟩], driverSwitch := some 3, selected := some ⟨9, 0, 0⟩, net := some 7,
          logical := some 3 }
      lookup := [5, 5] }
    clusters := ladderFabric.clusters.map fun c =>
      { c with locals := { pins := #[{ isOpen := true }], order := [9], bindings := [(9, 9)] } } }

/-- The data have no influence: the run ends like that of the fabric without them. -/
theorem gives_staleLadder :
  ladderFabric.bare = staleLadder.bare ∧ ∃ g, prepare.Gives staleLadder () g
    ∧ (annotate { maxRounds := some 4 }).Gives g ⟨⟨4, 0, 8⟩, 1, 0, 4, 6⟩ settledLadder
    ∧ (annotate { maxRounds := some 4 }).Gives settledLadder ⟨⟨4, 0, 8⟩, 1, 0, 4, 6⟩ settledLadder
  := by
  have hbare : ladderFabric.bare = staleLadder.bare := by
    simp only [bare, staleLadder, RoutingGraph.bare, Array.map_map]
    rfl
  obtain ⟨houtcome, hruns⟩ :=
    gives_of_bare_eq { maxRounds := some 4 } ladderFabric staleLadder hbare
  have hprepare : prepare.Gives staleLadder () (prepare.run staleLadder).state := by
    rw [prepare_ladderFabric.1] at houtcome
    exact ⟨houtcome.symm, rfl⟩
  obtain ⟨-, -, hannotate⟩ := hruns _ _ prepare_ladderFabric hprepare
  obtain ⟨hstale, hagain, -⟩ := hannotate _ _ annotate_preparedLadder
  exact ⟨hbare, _, hprepare, hstale, hagain⟩

end RoutingFabric.Fabric
