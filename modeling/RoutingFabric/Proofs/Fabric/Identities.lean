import RoutingFabric.Proofs.Fabric.Convergence

/-!
# Rounds move logical nets only

However many rounds are made, all that they change are logical nets. Those of nodes change only
where an output covers the node, and one that is set is never taken away. Each logical net that a
node or a pin carries is that of a net which has been routed, or which clustering has assigned to a
pin.
-/

namespace RoutingFabric

namespace Cluster

/-- The state of a pin without its logical net. -/
def PinState.withoutLogical (s : PinState) : PinState := { s with logical := none, changed := false }

/-- The cluster without the logical nets of its pins. -/
def withoutLogical (c : Cluster) : Cluster :=
  { c with locals := { c.locals with pins := c.locals.pins.map PinState.withoutLogical } }

variable {c c' : Cluster}

/-- Clusters that differ in nets only, and have the same ones at each pin, differ in logical nets
only. -/
theorem withoutLogical_eq (hsame : c.silent = c'.silent)
    (hnets : ∀ (id : PinId) s s', c.locals.pins[id]? = some s → c'.locals.pins[id]? = some s' →
      s.net = s'.net) :
  c.withoutLogical = c'.withoutLogical
  := by
  have hsilent : c.locals.pins.map PinState.silent = c'.locals.pins.map PinState.silent :=
    congrArg (fun c : Cluster => c.locals.pins) hsame
  have hpins : c.locals.pins.map PinState.withoutLogical
      = c'.locals.pins.map PinState.withoutLogical := by
    apply map_eq_of_map_eq hsilent
    intro id s s' hs hs' heq
    have hnet := hnets id s s' hs hs'
    cases s
    cases s'
    simp_all [PinState.silent, PinState.withoutLogical]
  have hview : ∀ c : Cluster, c.withoutLogical = { c.silent with
      locals := { c.silent.locals with pins := c.locals.pins.map PinState.withoutLogical } } :=
    fun _ => rfl
  rw [hview c, hview c', hsame, hpins]

/-- Clusters that differ in logical nets only differ in nets only. -/
theorem silent_of_withoutLogical_eq (h : c.withoutLogical = c'.withoutLogical) :
  c.silent = c'.silent
  := by
  have hview : ∀ c : Cluster, c.silent = c.withoutLogical.silent := by
    intro c
    simp [silent, withoutLogical, PinState.silent, PinState.withoutLogical]
  rw [hview c, hview c', h]

end Cluster

namespace Fabric

open Relation RoutingGraph

/-- The fabric without the logical nets of nodes and pins. -/
def withoutLogical (f : Fabric) : Fabric :=
  { f with graph := f.graph.silent, clusters := f.clusters.map Cluster.withoutLogical }

/-- So many rounds lead from the one fabric to the other. -/
inductive Rounds (f : Fabric) : Nat → Fabric → Prop
  | none : Rounds f 0 f
  | next {n count : Nat} {f' f'' : Fabric} (before : Rounds f n f')
    (round : parasiticRound.Gives f' count f'') : Rounds f (n + 1) f''

/-- The one fabric differs from the other in logical nets only, which nodes have come to carry only
where outputs cover them, and which nodes and pins have not lost. -/
structure Kept (f f' : Fabric) : Prop where
  same : f'.withoutLogical = f.withoutLogical
  covered : ∀ q, f'.graph.logicalAt q ≠ f.graph.logicalAt q → ∃ p, f.Covers p q
  nodes : ∀ q, f.graph.logicalAt q ≠ none → f'.graph.logicalAt q ≠ none
  pins : ∀ p, f.pinLogical p ≠ none → f'.pinLogical p ≠ none

/-- The logical net is that of a net which is routed, or which clustering has assigned to a pin. -/
def Original (f : Fabric) (skipDedicated : Bool) (logical : LogicalId) : Prop :=
  ∃ net, f.nets.logicalOf net = .ok logical
    ∧ ((∃ q, f.nets.Holds skipDedicated net q)
      ∨ ∃ (i : Nat) (c : Cluster) (id : PinId), f.clusters[i]? = some c ∧ c.pinNet id = some net)

/-- The logical nets of nodes and pins are those of nets which are routed, or which clustering has
assigned to pins. -/
structure Identified (f : Fabric) (skipDedicated : Bool) : Prop where
  nodes : ∀ q logical, f.graph.logicalAt q = some logical → f.Original skipDedicated logical
  pins : ∀ p logical, f.pinLogical p = some logical → f.Original skipDedicated logical

variable {f f' f'' f₀ f₁ f₂ : Fabric} {q : NodeId} {p : PinAt} {count n : Nat} {skip : Bool}
variable {stats : RoutingStats} {logical : LogicalId}

/-! ### What does not depend on logical nets -/

/-- Fabrics that differ in logical nets only differ in nets only. -/
theorem silent_of_withoutLogical_eq (h : f.withoutLogical = f'.withoutLogical) :
  f.silent = f'.silent
  := by
  have hgraph := congrArg (·.graph) h
  have hclusters := congrArg (·.clusters) h
  have hsilent : f.clusters.map Cluster.silent = f'.clusters.map Cluster.silent := by
    apply map_eq_of_map_eq hclusters
    intro i c c' _ _ heq
    apply Cluster.silent_of_withoutLogical_eq heq
  have hview : ∀ f : Fabric, f.silent = { f.withoutLogical with
      clusters := f.clusters.map Cluster.silent } :=
    fun _ => rfl
  rw [hview f, hview f', h, hsilent]

/-- A logical net that clustering assigns to a pin together with a net is that of the net. -/
theorem original_of_assigned {i : Nat} {c : Cluster} {id : PinId} (hc : f.clusters[i]? = some c)
    (h : f.nets.logicalOf? (c.pinNet id) = .ok (some logical)) :
  f.Original skip logical
  := by
  cases hnet : c.pinNet id with
  | none =>
    rw [hnet] at h
    cases h
  | some net =>
    rw [hnet] at h
    obtain ⟨logical', hlogical, h⟩ := bind_eq_ok_iff.mp h
    cases pure_eq_ok_iff.mp h
    use net, hlogical
    right
    use i, c, id

/-- Which nets are routed or assigned does not depend on the nets of pins. -/
theorem Original.of_silent_eq (h : f.Original skip logical) (hsame : f.silent = f'.silent) :
  f'.Original skip logical
  := by
  obtain ⟨net, hlogical, horigin⟩ := h
  rw [nets_congr hsame] at hlogical horigin
  use net, hlogical
  rcases horigin with hrouted | ⟨i, c, id, hc, hnet⟩
  · left
    apply hrouted
  · right
    obtain ⟨c', hc', heq⟩ := exists_getElem?_of_map_eq (clusters_silent_eq hsame) hc
    use i, c', id, hc'
    rw [← hnet]
    apply Cluster.congr_of_silent_eq (·.pinNet id) (fun _ => rfl) heq.symm

/-! ### Steady fabrics -/

/-- A pin that carries a logical net has a state. -/
theorem exists_pin_of_pinLogical (h : f.pinLogical p = some logical) :
  ∃ c s, f.clusters[p.cluster]? = some c ∧ c.locals.pins[p.pin]? = some s
    ∧ s.logical = some logical
  := by
  obtain ⟨c, hc, h⟩ := Option.bind_eq_some_iff.mp h
  obtain ⟨s, hs, hlogical⟩ := Option.bind_eq_some_iff.mp h
  use c, s

/-- Pins of two steady fabrics that differ in nets only carry the same net, and logical nets that
are related as those of nodes are, provided that each one that clustering assigns is to itself. -/
theorem Primed.compare {R : Option LogicalId → Option LogicalId → Prop} (hf : f.Primed)
    (hsteady : f.Steady) (hsteady' : f'.Steady) (hsame : f.silent = f'.silent)
    (hassigned : ∀ (i : Nat) c id logical, f.clusters[i]? = some c →
      f.nets.logicalOf? (c.pinNet id) = .ok logical → R logical logical)
    (hnodes : ∀ q, R (f.graph.logicalAt q) (f'.graph.logicalAt q)) {i : Nat} {c : Cluster}
    (hc : f.clusters[i]? = some c) :
  ∃ c', f'.clusters[i]? = some c' ∧ c.silent = c'.silent
    ∧ ∀ (id : PinId) s s', c.locals.pins[id]? = some s → c'.locals.pins[id]? = some s' →
      s.net = s'.net ∧ R s.logical s'.logical
  := by
  obtain ⟨b, hb, hprimed⟩ := hf.clusters i c hc
  obtain ⟨c', hc', heq⟩ := HasCluster.of_silent_eq ⟨hc, hb⟩ hsame
  have hpins := hsteady' i b c' hc'
  rw [← nets_congr hsame] at hpins
  use c', hc'.1, heq
  intro id s s' hs hs'
  apply (hsteady i b c ⟨hc, hb⟩).compare hpins heq (graph_silent_eq hsame)
    hprimed.ordered.exists_dependency (fun id logical => hassigned i c id logical hc) hnodes
    (hprimed.ordered.grounded id) hs hs'

/-- Steady fabrics that differ in nets only differ in logical nets only. -/
theorem Primed.withoutLogical_eq (hf : f.Primed) (hsteady : f.Steady) (hsteady' : f'.Steady)
    (hsame : f.silent = f'.silent) :
  f.withoutLogical = f'.withoutLogical
  := by
  have hclusters : f.clusters.map Cluster.withoutLogical
      = f'.clusters.map Cluster.withoutLogical := by
    apply map_eq_of_map_eq (clusters_silent_eq hsame)
    intro i c c' hc hc' heq
    obtain ⟨c'', hc'', -, hpins⟩ := hf.compare hsteady hsteady' hsame
      (R := fun _ _ => True) (fun _ _ _ _ _ _ => trivial) (fun _ => trivial) hc
    rw [hc'] at hc''
    cases hc''
    apply Cluster.withoutLogical_eq heq
    intro id s s' hs hs'
    apply (hpins id s s' hs hs').1
  have hview : ∀ f : Fabric, f.withoutLogical = { f.silent with
      clusters := f.clusters.map Cluster.withoutLogical } :=
    fun _ => rfl
  rw [hview f, hview f', hsame, hclusters]

/-- In a steady fabric, where nodes have not lost their logical nets since another one, pins have
not either. -/
theorem Primed.pinLogical_ne_none (hf : f.Primed) (hsteady : f.Steady) (hsteady' : f'.Steady)
    (hsame : f.silent = f'.silent)
    (hnodes : ∀ q, f.graph.logicalAt q ≠ none → f'.graph.logicalAt q ≠ none) (p : PinAt)
    (hp : f.pinLogical p ≠ none) :
  f'.pinLogical p ≠ none
  := by
  obtain ⟨logical, hlogical⟩ := Option.ne_none_iff_exists'.mp hp
  obtain ⟨c, s, hc, hs, hcarries⟩ := exists_pin_of_pinLogical hlogical
  obtain ⟨c', hc', heq, hpins⟩ := hf.compare hsteady hsteady' hsame
    (R := fun l l' => l ≠ none → l' ≠ none) (fun _ _ _ _ _ _ h => h) hnodes hc
  obtain ⟨s', hs', -⟩ := Cluster.exists_pin_of_silent_eq heq hs
  rw [pinLogical_eq hc', Cluster.logicalAt_of_pin (entry_eq_ok_iff.mpr hs')]
  apply (hpins p.pin s s' hs hs').2
  rw [hcarries]
  apply Option.some_ne_none

/-- In a steady fabric, where the logical nets of nodes are those of nets that are routed or
assigned, those of pins are as well. -/
theorem Primed.identified (hf : f.Primed) (hsteady : f.Steady)
    (hnodes : ∀ q logical, f.graph.logicalAt q = some logical → f.Original skip logical) :
  f.Identified skip
  := by
  constructor
  case nodes => apply hnodes
  case pins =>
    intro p logical hlogical
    obtain ⟨c, s, hc, hs, hcarries⟩ := exists_pin_of_pinLogical hlogical
    obtain ⟨c', hc', -, hpins⟩ := hf.compare hsteady hsteady rfl
      (R := fun l _ => ∀ x, l = some x → f.Original skip x) (by
        rintro i c id _ hc hassigned x rfl
        apply original_of_assigned hc hassigned) hnodes hc
    rw [hc] at hc'
    cases hc'
    apply (hpins p.pin s s hs hs).2 logical hcarries

/-! ### One round -/

/-- A logical net that arrives at a node is carried by a pin whose outlet reaches the node. -/
theorem exists_outlet_of_arriving {g : RoutingGraph} {value : PinAt → Option LogicalId}
    {os : List Outlet} (h : arriving g value q os = some logical) :
  ∃ o ∈ os, ReflTransGen g.Linked o.node q ∧ value o.pin = some logical
  := by
  induction os with
  | nil => cases h
  | cons o os ih =>
    rw [arriving, Option.or_eq_some_iff] at h
    rcases h with h | ⟨-, h⟩
    · obtain ⟨o', ho', hrest⟩ := ih h
      use o', List.mem_cons_of_mem o ho'
    · split at h
      · rename_i hreaches
        use o, List.mem_cons_self
      · cases h

/-- After a round a node carries what arrives, or what it carried before. -/
theorem Advanced.logicalAt (h : f.Advanced count f') (hf : f.Primed) (q : NodeId) :
  f'.graph.logicalAt q
    = (arriving f.graph f.pinLogical q f.outlets).or (f.graph.logicalAt q)
  := by
  obtain ⟨nodes, f₁, hexport, hgraph⟩ := h.exports
  rw [hgraph]
  apply (hf.exportOutputs hexport).2.2

/-- A round from a steady fabric changes logical nets only. -/
theorem Primed.kept (hf : f.Primed) (hsteady : f.Steady) (h : parasiticRound.Gives f count f') :
  f.Kept f'
  := by
  have hnext := hf.advanced h
  have hsteady' := hnext.steady hf
  have hnodes : ∀ q, f.graph.logicalAt q ≠ none → f'.graph.logicalAt q ≠ none := by
    intro q hq
    rw [hnext.logicalAt hf, Ne, Option.or_eq_none_iff, not_and_or]
    right
    apply hq
  constructor
  case same => rw [hf.withoutLogical_eq hsteady hsteady' hnext.same.symm]
  case covered =>
    intro q hq
    cases harrives : arriving f.graph f.pinLogical q f.outlets with
    | none =>
      rw [hnext.logicalAt hf, harrives] at hq
      cases hq rfl
    | some logical =>
      obtain ⟨o, ho, hreaches, -⟩ := exists_outlet_of_arriving harrives
      use o.pin, o.node, mem_outlets_iff.mp ho, hreaches
  case nodes => apply hnodes
  case pins => apply hf.pinLogical_ne_none hsteady hsteady' hnext.same.symm hnodes

/-- After a round logical nets are still those of nets that are routed or assigned. -/
theorem Identified.round (h : f.Identified skip) (hf : f.Primed)
    (hround : parasiticRound.Gives f count f') :
  f'.Identified skip
  := by
  have hnext := hf.advanced hround
  apply (hnext.primed hf).identified (hnext.steady hf)
  intro q logical hlogical
  rw [hnext.logicalAt hf, Option.or_eq_some_iff] at hlogical
  rcases hlogical with harrives | ⟨-, hold⟩
  · obtain ⟨o, -, -, hcarries⟩ := exists_outlet_of_arriving harrives
    apply (h.pins o.pin logical hcarries).of_silent_eq hnext.same.symm
  · apply (h.nodes q logical hold).of_silent_eq hnext.same.symm

/-! ### Any number of rounds -/

/-- Nothing changes without a round. -/
theorem Kept.refl (f : Fabric) : f.Kept f where
  same := rfl
  covered _ h := absurd rfl h
  nodes _ h := h
  pins _ h := h

/-- What is kept twice is kept. -/
theorem Kept.trans (h : f.Kept f') (h' : f'.Kept f'') : f.Kept f'' := by
  have hsame := silent_of_withoutLogical_eq h.same
  constructor
  case same => rw [h'.same, h.same]
  case covered =>
    intro q hq
    by_cases hfirst : f'.graph.logicalAt q = f.graph.logicalAt q
    · rw [← hfirst] at hq
      obtain ⟨p, hp⟩ := h'.covered q hq
      use p
      apply hp.of_silent_eq hsame
    · apply h.covered q hfirst
  case nodes =>
    intro q hq
    apply h'.nodes q (h.nodes q hq)
  case pins =>
    intro p hp
    apply h'.pins p (h.pins p hp)

/-- Rounds from a primed and steady fabric keep it so, and change logical nets only. -/
theorem Rounds.kept (h : f.Rounds n f') (hf : f.Primed) (hsteady : f.Steady) :
  f'.Primed ∧ f'.Steady ∧ f.Kept f'
  := by
  induction h with
  | none =>
    use hf, hsteady
    apply Kept.refl
  | next before round ih =>
    obtain ⟨hprimed, hsteady', hkept⟩ := ih
    have hnext := hprimed.advanced round
    use hnext.primed hprimed, hnext.steady hprimed
    apply hkept.trans (hprimed.kept hsteady' round)

/-- After rounds logical nets are still those of nets that are routed or assigned. -/
theorem Rounds.identified (h : f.Rounds n f') (hf : f.Primed) (hsteady : f.Steady)
    (hidentified : f.Identified skip) :
  f'.Identified skip
  := by
  induction h with
  | none => apply hidentified
  | next before round ih => apply ih.round (before.kept hf hsteady).1 round

/-- Any number of rounds can be made where links have no cycle. -/
theorem Primed.exists_rounds (hf : f.Primed) (hsteady : f.Steady)
    (hlinks : ∀ q, ¬ TransGen f.graph.Linked q q) (n : Nat) :
  ∃ f', f.Rounds n f'
  := by
  induction n with
  | zero =>
    use f
    apply Rounds.none
  | succ n ih =>
    obtain ⟨f', hrounds⟩ := ih
    obtain ⟨hprimed, hsteady', hkept⟩ := hrounds.kept hf hsteady
    obtain ⟨count, f'', hround⟩ := hprimed.exists_round hsteady' (by
      intro p node _ _
      rw [linked_congr (graph_silent_eq (silent_of_withoutLogical_eq hkept.same))]
      apply hlinks)
    use f''
    apply hrounds.next hround

/-! ### From preparation on -/

/-- Annotating clusters leaves the graph and the nets as they are. -/
theorem graph_of_annotateClusters (h : annotateClusters.Gives f () f') :
  f'.graph = f.graph ∧ f'.nets = f.nets
  := by
  obtain ⟨_, _, hstate, h⟩ := Phase.gives_bind_iff.mp h
  obtain ⟨rfl, rfl⟩ := Phase.gives_state_iff.mp hstate
  apply Phase.each_induction h (I := fun s => s.graph = f.graph ∧ s.nets = f.nets) ⟨rfl, rfl⟩
  intro i _ s s' hs hstep
  obtain ⟨c, b, c₁, count, c₂, -, -, -, -, rfl⟩ := gives_annotateCluster_iff.mp hstep
  apply hs

/-- Once nets are traced and clusters are annotated, logical nets are those of nets that are routed
or assigned. -/
theorem identified_of_phases (hprepare : prepare.Gives f₀ () f₁)
    (htrace : (traceNets skip).Gives f₁ stats f₂) (hclusters : annotateClusters.Gives f₂ () f) :
  f.Identified skip
  := by
  obtain ⟨hprimed, hsteady⟩ := primed_of_phases hprepare htrace hclusters
  apply hprimed.identified hsteady
  intro q logical hlogical
  obtain ⟨hgraph, hnets⟩ := graph_of_annotateClusters hclusters
  obtain ⟨g, hall, rfl⟩ := gives_traceNets_iff.mp htrace
  have htraced := (tracedBefore_of_traceAll hall).traced
  rw [hgraph] at hlogical
  obtain ⟨m, hm, hlogical⟩ := Option.bind_eq_some_iff.mp hlogical
  have hmarked := htraced.marked.nodes q m (entry_eq_ok_iff.mpr hm)
  have hname := hmarked.logical
  rw [hlogical] at hname
  cases hnet : m.net with
  | none =>
    rw [hnet] at hname
    cases hname
  | some net =>
    rw [hnet] at hname
    obtain ⟨logical', hlogical', hname⟩ := bind_eq_ok_iff.mp hname
    cases pure_eq_ok_iff.mp hname
    rw [Original, hnets]
    use net, hlogical'
    left
    use q
    apply (hmarked.net net).mp hnet

/-- Where links have no cycle, any number of rounds can be made. At each time logical nets are those
of nets that are routed or assigned, and from each time on rounds change logical nets only. -/
theorem kept_of_rounds (hprepare : prepare.Gives f₀ () f₁)
    (htrace : (traceNets skip).Gives f₁ stats f₂) (hclusters : annotateClusters.Gives f₂ () f)
    (hlinks : ∀ q, ¬ TransGen f.graph.Linked q q) :
  (∀ n, ∃ f', f.Rounds n f')
    ∧ ∀ n f', f.Rounds n f' → f'.Identified skip
      ∧ ∀ more f'', f'.Rounds more f'' → f'.Kept f''
  := by
  obtain ⟨hprimed, hsteady⟩ := primed_of_phases hprepare htrace hclusters
  constructor
  · apply hprimed.exists_rounds hsteady hlinks
  · intro n f' hrounds
    obtain ⟨hprimed', hsteady', -⟩ := hrounds.kept hprimed hsteady
    constructor
    · apply hrounds.identified hprimed hsteady
      apply identified_of_phases hprepare htrace hclusters
    · intro more f'' hmore
      apply (hmore.kept hprimed' hsteady').2.2

/-- Rounds on the ladder change logical nets only. -/
theorem kept_ladder :
  prepare.Gives ladderFabric () preparedLadder
    ∧ (traceNets true).Gives preparedLadder ⟨4, 0, 8⟩ tracedLadder
    ∧ annotateClusters.Gives tracedLadder () annotatedLadder
    ∧ (∀ q, ¬ TransGen annotatedLadder.graph.Linked q q)
    ∧ ∃ f', annotatedLadder.Rounds 4 f' ∧ f'.Identified true ∧ annotatedLadder.Kept f'
  := by
  obtain ⟨hexists, hkept⟩ := kept_of_rounds prepare_ladderFabric traceNets_preparedLadder
    annotateClusters_tracedLadder not_transGen_linked_ladder
  obtain ⟨f', hrounds⟩ := hexists 4
  refine ⟨prepare_ladderFabric, traceNets_preparedLadder, annotateClusters_tracedLadder,
    not_transGen_linked_ladder, f', hrounds, (hkept 4 f' hrounds).1, ?_⟩
  apply (hkept 0 annotatedLadder Rounds.none).2 4 f' hrounds

end Fabric

end RoutingFabric
