import RoutingFabric.Fabric.Parasitic
import RoutingFabric.Proofs.Fabric.Boundary
import RoutingFabric.Proofs.RoutingGraph.Forwarding

/-!
# Moving outputs to the graph

Cluster outputs are moved to the graph one after another, each to the nodes that it covers. So a
node is left with the logical net of the last output that covers it and carries one, and keeps its
own if there is none. Moving the same logical nets once more changes nothing, and a node that comes
to carry another logical net is covered by an output that does.
-/

namespace RoutingFabric

/-- A node and the output of a cluster that is bound to it. -/
structure Outlet where
  pin : PinAt
  node : NodeId

namespace Fabric

open Relation RoutingGraph

variable {g g' : RoutingGraph} {b : BlockGraph} {c : Cluster} {q node : NodeId} {pin : PinId}
variable {bindings : List (PinId × NodeId)} {count : Nat}

/-! ### One output -/

open Classical in
/-- What moving a pin to the graph changes: the logical nets of the nodes reached from the node of
an output that carries one. -/
theorem logicalAt_of_exportPin {p : BlockGraph.Pin} (hg : g.Wired) (hp : b.pin pin = .ok p)
    (h : exportPin b c g pin node = .ok (count, g')) :
  g'.silent = g.silent ∧ ∀ q, g'.logicalAt q
    = (if ¬ p.kind.isInput ∧ ReflTransGen g.Linked node q then c.logicalAt pin else none).or
      (g.logicalAt q)
  := by
  rw [exportPin, hp, ok_bind] at h
  split at h
  · rename_i hinput
    cases pure_eq_ok_iff.mp h
    simp [hinput]
  · rename_i houtput
    obtain ⟨s, hs, h⟩ := bind_eq_ok_iff.mp h
    rw [Cluster.logicalAt_of_pin hs]
    cases hlogical : s.logical with
    | none =>
      rw [hlogical] at h
      cases pure_eq_ok_iff.mp h
      simp
    | some logical =>
      rw [hlogical] at h
      obtain ⟨⟨here, g''⟩, hgive, h⟩ := bind_eq_ok_iff.mp h
      obtain ⟨⟨beyond, _⟩, hforward, h⟩ := bind_eq_ok_iff.mp h
      cases pure_eq_ok_iff.mp h
      obtain ⟨hsame, hhere⟩ := logicalAt_of_giveLogical hgive
      obtain ⟨hsame', hbeyond⟩ :=
        logicalAt_of_forwardLogical (hg.of_silent_eq hsame.symm) hforward
      refine ⟨hsame'.trans hsame, ?_⟩
      intro q
      rw [hbeyond q, hhere q, hhere node, linked_congr hsame, reflTransGen_iff_eq_or_transGen]
      by_cases hq : q = node
      · simp [hq, houtput]
      · by_cases hreached : TransGen g.Linked node q
        · simp [hq, hreached, houtput]
        · simp [hq, hreached]

/-- An output that carries a logical net can be moved to the graph exactly if links do not lead back
to its node. -/
theorem exists_exportPin_iff {p : BlockGraph.Pin} {s : Cluster.PinState} (hg : g.Wired)
    (hp : b.pin pin = .ok p) (hs : c.locals.pin pin = .ok s) (hnode : node < g.size) :
  (∃ count g', exportPin b c g pin node = .ok (count, g'))
    ↔ (¬ p.kind.isInput → c.logicalAt pin ≠ none → ¬ TransGen g.Linked node node)
  := by
  rw [exportPin, hp, ok_bind, Cluster.logicalAt_of_pin hs]
  split
  · rename_i hinput
    constructor
    · intro _ houtput
      contradiction
    · intro _
      exact ⟨0, g, rfl⟩
  · rename_i houtput
    rw [hs, ok_bind]
    cases hlogical : s.logical with
    | none =>
      constructor
      · intro _ _ hnone
        contradiction
      · intro _
        exact ⟨0, g, rfl⟩
    | some logical =>
      obtain ⟨here, g'', hgive⟩ : ∃ here g'', g.giveLogical (some logical) [node]
          = .ok (here, g'') := by
        apply exists_giveLogical
        intro q hq
        rw [List.mem_singleton.mp hq]
        apply hnode
      obtain ⟨hsame, -⟩ := logicalAt_of_giveLogical hgive
      have hnode' : node < g''.size := by
        rw [size_eq_of_view_eq hsame]
        apply hnode
      rw [← linked_congr hsame, ← exists_forwardLogical_iff (hg.of_silent_eq hsame.symm) hnode']
      simp only [hgive, ok_bind]
      constructor
      · rintro ⟨count, g', h⟩ - -
        obtain ⟨⟨beyond, last⟩, hforward, -⟩ := bind_eq_ok_iff.mp h
        exact ⟨beyond, last, hforward⟩
      · intro h
        obtain ⟨beyond, last, hforward⟩ := h houtput (by simp)
        exact ⟨here + beyond, last, bind_eq_ok_iff.mpr ⟨_, hforward, rfl⟩⟩

/-! ### What is left of several outputs -/

open Classical in
/-- The logical net of the last outlet in a list that reaches a node and carries one. -/
noncomputable def arriving (g : RoutingGraph) (value : PinAt → Option LogicalId) (q : NodeId) :
    List Outlet → Option LogicalId
  | [] => none
  | o :: rest =>
    (arriving g value q rest).or (if ReflTransGen g.Linked o.node q then value o.pin else none)

variable {value value' : PinAt → Option LogicalId} {os rest : List Outlet}

/-- What is left of two lists is what is left of the second, or else of the first. -/
theorem arriving_append :
  arriving g value q (os ++ rest)
    = (arriving g value q rest).or (arriving g value q os)
  := by
  induction os with
  | nil => simp [arriving]
  | cons o os ih => rw [List.cons_append, arriving, ih, arriving, Option.or_assoc]

/-- What is left is determined by the outlets that reach the node. -/
theorem arriving_congr
    (h : ∀ o ∈ os, ReflTransGen g.Linked o.node q → value o.pin = value' o.pin) :
  arriving g value q os = arriving g value' q os
  := by
  induction os with
  | nil => rfl
  | cons o os ih =>
    rw [arriving, arriving, ih fun o ho => h o (List.mem_cons_of_mem _ ho)]
    split
    · rename_i hreaches
      rw [h o List.mem_cons_self hreaches]
    · rfl

/-- Nothing is left where no outlet that reaches the node carries a logical net. -/
theorem arriving_eq_none
    (h : ∀ o ∈ os, ReflTransGen g.Linked o.node q → value o.pin = none) :
  arriving g value q os = none
  := by
  induction os with
  | nil => rfl
  | cons o os ih =>
    rw [arriving, ih fun o ho => h o (List.mem_cons_of_mem _ ho)]
    split
    · rename_i hreaches
      rw [h o List.mem_cons_self hreaches]
      rfl
    · rfl

/-- What is left does not depend on the logical nets of nodes. -/
theorem arriving_of_silent_eq (h : g.silent = g'.silent) :
  arriving g value q os = arriving g' value q os
  := by
  induction os with
  | nil => rfl
  | cons o os ih => rw [arriving, arriving, ih, linked_congr h]

/-- Where all outlets that reach a node carry one logical net, that is left. -/
theorem arriving_eq_some {logical : LogicalId}
    (h : ∀ o ∈ os, ReflTransGen g.Linked o.node q → value o.pin = some logical)
    (hsome : ∃ o ∈ os, ReflTransGen g.Linked o.node q) :
  arriving g value q os = some logical
  := by
  induction os with
  | nil => simp at hsome
  | cons o os ih =>
    rw [arriving]
    by_cases hrest : ∃ o ∈ os, ReflTransGen g.Linked o.node q
    · rw [ih (fun o ho => h o (List.mem_cons_of_mem _ ho)) hrest]
      rfl
    · have hnone : arriving g value q os = none := by
        apply arriving_eq_none
        intro o ho hreaches
        cases hrest ⟨o, ho, hreaches⟩
      obtain ⟨o', ho', hreaches⟩ := hsome
      rcases List.mem_cons.mp ho' with rfl | ho'
      · rw [hnone, if_pos hreaches, h o' List.mem_cons_self hreaches]
        rfl
      · cases hrest ⟨o', ho', hreaches⟩

/-! ### Outputs of a cluster -/

/-- The outlets of a cluster of a type, given the bindings of its pins. -/
def outletsOf (i : Nat) (b : BlockGraph) (bindings : List (PinId × NodeId)) : List Outlet :=
  bindings.filterMap fun (pin, node) =>
    if (b.pins[pin]?).any (!·.kind.isInput) then some ⟨⟨i, pin⟩, node⟩ else none

/-- The outlets of a cluster are the bindings of its outputs. -/
theorem mem_outletsOf_iff {i : Nat} {o : Outlet} :
  o ∈ outletsOf i b bindings ↔ o.pin.cluster = i ∧ (o.pin.pin, o.node) ∈ bindings
    ∧ ∃ s, b.pin o.pin.pin = .ok s ∧ ¬ s.kind.isInput
  := by
  obtain ⟨⟨k, pin⟩, node⟩ := o
  simp only [outletsOf, List.mem_filterMap, Prod.exists, Option.ite_none_right_eq_some,
    Option.any_eq_true, BlockGraph.pin, entry_eq_ok_iff, Option.some.injEq, Outlet.mk.injEq,
    PinAt.mk.injEq, Bool.not_eq_true', Bool.not_eq_true]
  constructor
  · rintro ⟨_, _, hmem, hs, ⟨rfl, rfl⟩, rfl⟩
    exact ⟨rfl, hmem, hs⟩
  · rintro ⟨rfl, hmem, hs⟩
    exact ⟨pin, node, hmem, hs, ⟨rfl, rfl⟩, rfl⟩

/-- Bindings that pins and nodes can be found for. -/
def Bound (b : BlockGraph) (c : Cluster) (g : RoutingGraph) (bindings : List (PinId × NodeId)) :
    Prop :=
  ∀ x ∈ bindings, (∃ p, b.pin x.1 = .ok p) ∧ (∃ s, c.locals.pin x.1 = .ok s) ∧ x.2 < g.size

/-- Moving the outputs of a cluster to the graph leaves nodes with what arrives from its outlets. -/
theorem logicalAt_of_exportPins {i : Nat} (hg : g.Wired) (hbound : Bound b c g bindings)
    (hvalue : ∀ pin, value ⟨i, pin⟩ = c.logicalAt pin)
    (h : exportPins b c g bindings = .ok (count, g')) :
  g'.silent = g.silent ∧ ∀ q, g'.logicalAt q
    = (arriving g value q (outletsOf i b bindings)).or (g.logicalAt q)
  := by
  induction bindings generalizing g count with
  | nil =>
    cases pure_eq_ok_iff.mp h
    simp [outletsOf, arriving]
  | cons x bindings ih =>
    obtain ⟨pin, node⟩ := x
    obtain ⟨⟨here, g''⟩, hpin, h⟩ := bind_eq_ok_iff.mp h
    obtain ⟨⟨beyond, _⟩, hrest, h⟩ := bind_eq_ok_iff.mp h
    cases pure_eq_ok_iff.mp h
    obtain ⟨⟨p, hp⟩, -⟩ := hbound (pin, node) List.mem_cons_self
    obtain ⟨hsame, hhere⟩ := logicalAt_of_exportPin hg hp hpin
    have hbound' : Bound b c g'' bindings := by
      intro x hx
      rw [size_eq_of_view_eq hsame]
      apply hbound x (List.mem_cons_of_mem _ hx)
    obtain ⟨hsame', hbeyond⟩ := ih (hg.of_silent_eq hsame.symm) hbound' hrest
    refine ⟨hsame'.trans hsame, ?_⟩
    intro q
    rw [hbeyond q, hhere q, arriving_of_silent_eq hsame, ← Option.or_assoc, ← hvalue pin]
    congr 1
    cases hkind : p.kind.isInput with
    | true => simp [outletsOf, entry_eq_ok_iff.mp hp, hkind]
    | false =>
      by_cases hreaches : ReflTransGen g.Linked node q <;>
        simp [outletsOf, entry_eq_ok_iff.mp hp, hkind, arriving, hreaches]

/-- The outputs of a cluster can be moved to the graph exactly if links do not lead back to the
nodes of those that carry a logical net. -/
theorem exists_exportPins_iff {i : Nat} (hg : g.Wired) (hbound : Bound b c g bindings)
    (hvalue : ∀ pin, value ⟨i, pin⟩ = c.logicalAt pin) :
  (∃ count g', exportPins b c g bindings = .ok (count, g'))
    ↔ ∀ o ∈ outletsOf i b bindings, value o.pin ≠ none → ¬ TransGen g.Linked o.node o.node
  := by
  induction bindings generalizing g with
  | nil =>
    simp only [outletsOf, List.filterMap_nil, List.not_mem_nil, false_imp_iff, implies_true,
      iff_true]
    exact ⟨0, g, rfl⟩
  | cons x bindings ih =>
    obtain ⟨pin, node⟩ := x
    obtain ⟨⟨p, hp⟩, ⟨s, hs⟩, hnode⟩ := hbound (pin, node) List.mem_cons_self
    have hhere := exists_exportPin_iff hg hp hs hnode
    have hcons : (∀ o ∈ outletsOf i b ((pin, node) :: bindings), value o.pin ≠ none →
        ¬ TransGen g.Linked o.node o.node)
        ↔ (¬ p.kind.isInput → c.logicalAt pin ≠ none → ¬ TransGen g.Linked node node)
          ∧ ∀ o ∈ outletsOf i b bindings, value o.pin ≠ none →
            ¬ TransGen g.Linked o.node o.node := by
      rw [← hvalue pin]
      cases hkind : p.kind.isInput with
      | true => simp [outletsOf, entry_eq_ok_iff.mp hp, hkind]
      | false => simp [outletsOf, entry_eq_ok_iff.mp hp, hkind]
    rw [hcons, ← hhere]
    -- what follows the first output meets a graph with the same links
    have hafter : ∀ here g'', exportPin b c g pin node = .ok (here, g'') →
        ((∃ count g', exportPins b c g'' bindings = .ok (count, g'))
          ↔ ∀ o ∈ outletsOf i b bindings, value o.pin ≠ none →
            ¬ TransGen g.Linked o.node o.node) := by
      intro here g'' hpin
      obtain ⟨hsame, -⟩ := logicalAt_of_exportPin hg hp hpin
      rw [← linked_congr hsame]
      apply ih (hg.of_silent_eq hsame.symm)
      intro x hx
      rw [size_eq_of_view_eq hsame]
      apply hbound x (List.mem_cons_of_mem _ hx)
    constructor
    · rintro ⟨count, g', h⟩
      obtain ⟨⟨here, g''⟩, hpin, h⟩ := bind_eq_ok_iff.mp h
      obtain ⟨⟨beyond, last⟩, hrest, -⟩ := bind_eq_ok_iff.mp h
      exact ⟨⟨here, g'', hpin⟩, (hafter here g'' hpin).mp ⟨beyond, last, hrest⟩⟩
    · rintro ⟨⟨here, g'', hpin⟩, hrest⟩
      obtain ⟨beyond, last, hrest⟩ := (hafter here g'' hpin).mpr hrest
      exact ⟨here + beyond, last,
        bind_eq_ok_iff.mpr ⟨_, hpin, bind_eq_ok_iff.mpr ⟨_, hrest, rfl⟩⟩⟩

/-! ### Outputs of all clusters -/

/-- The outlets of clusters that are numbered from an index on. -/
def outletsFrom (blockGraphs : Array BlockGraph) (i : Nat) : List Cluster → List Outlet
  | [] => []
  | c :: rest =>
    ((blockGraphs[c.blockGraph]?).elim [] fun b => outletsOf i b c.locals.bindings)
      ++ outletsFrom blockGraphs (i + 1) rest

/-- The outlets of a fabric, in the order in which they are moved to the graph. -/
def outlets (f : Fabric) : List Outlet := outletsFrom f.blockGraphs 0 f.clusters.toList

/-- The clusters are primed, and their outputs can be forwarded on the graph. -/
structure Primed (f : Fabric) : Prop where
  wired : f.graph.Wired
  clusters : ∀ (i : Nat) c, f.clusters[i]? = some c →
    ∃ b, f.blockGraphOf c = .ok b ∧ c.Primed b f.graph.size

variable {f f' : Fabric}

/-- The cluster at an index of a primed fabric is primed. -/
theorem Primed.cluster {i : Nat} (hf : f.Primed) (h : f.HasCluster i b c) :
  c.Primed b f.graph.size
  := by
  obtain ⟨hc, hb⟩ := h
  obtain ⟨b', hb', hprimed⟩ := hf.clusters i c hc
  rw [hb] at hb'
  cases hb'
  apply hprimed

/-- The outlets of a list of clusters are those of each. -/
theorem mem_outletsFrom_iff {blockGraphs : Array BlockGraph} {i : Nat} {cs : List Cluster}
    {o : Outlet} :
  o ∈ outletsFrom blockGraphs i cs ↔ ∃ k c b, cs[k]? = some c ∧ blockGraphs[c.blockGraph]? = some b
    ∧ o ∈ outletsOf (i + k) b c.locals.bindings
  := by
  induction cs generalizing i with
  | nil => simp [outletsFrom]
  | cons c cs ih =>
    rw [outletsFrom, List.mem_append, ih]
    constructor
    · rintro (ho | ⟨k, c', b, hc', hb, ho⟩)
      · cases hb : blockGraphs[c.blockGraph]? with
        | none => simp [hb] at ho
        | some b =>
          rw [hb] at ho
          exact ⟨0, c, b, rfl, hb, ho⟩
      · exact ⟨k + 1, c', b, hc', hb, by rwa [Nat.add_right_comm] at ho⟩
    · rintro ⟨k, c', b, hc', hb, ho⟩
      cases k with
      | zero =>
        left
        cases hc'
        rw [hb]
        apply ho
      | succ k =>
        right
        exact ⟨k, c', b, hc', hb, by rwa [Nat.add_right_comm]⟩

/-- The outlets of a fabric are its outputs with the nodes that they are bound to. -/
theorem mem_outlets_iff {o : Outlet} : o ∈ f.outlets ↔ f.OutputOn o.pin o.node := by
  simp only [outlets, mem_outletsFrom_iff, mem_outletsOf_iff, Nat.zero_add, Array.getElem?_toList,
    OutputOn, HasCluster, blockGraphOf, entry_eq_ok_iff]
  constructor
  · rintro ⟨_, c, b, hc, hb, rfl, hmem, s, hs⟩
    exact ⟨b, c, s, ⟨hc, hb⟩, hmem, hs⟩
  · rintro ⟨b, c, s, ⟨hc, hb⟩, hmem, hs⟩
    exact ⟨_, c, b, hc, hb, rfl, hmem, s, hs⟩

/-- Outlets do not depend on nets. -/
theorem outlets_congr (h : f.silent = f'.silent) : f.outlets = f'.outlets := by
  apply congr_of_silent_eq outlets _ h
  intro f
  have hfrom : ∀ i (cs : List Cluster), outletsFrom f.blockGraphs i (cs.map Cluster.silent)
      = outletsFrom f.blockGraphs i cs := by
    intro i cs
    induction cs generalizing i with
    | nil => rfl
    | cons c cs ih =>
      rw [List.map_cons, outletsFrom, outletsFrom, ih]
      rfl
  simp [outlets, silent, hfrom]

/-- Bindings of a primed cluster can be found. -/
theorem bound_of_primed (h : c.Primed b g.size) : Bound b c g c.locals.bindings := by
  intro x hx
  obtain ⟨hpin, hnode⟩ := h.bound x hx
  refine ⟨⟨_, entry_of_lt hpin⟩, ⟨_, entry_of_lt ?_⟩, hnode⟩
  rw [h.size]
  apply hpin

/-- Moving the outputs of clusters to the graph leaves nodes with what arrives from their outlets.
-/
theorem Primed.logicalAt_of_exportClusters {i : Nat} {cs : List Cluster} (hf : f.Primed)
    (hg : g.silent = f.graph.silent)
    (hcs : ∀ (k : Nat) c, cs[k]? = some c → f.clusters[i + k]? = some c)
    (h : exportClusters f g cs = .ok (count, g')) :
  g'.silent = g.silent ∧ ∀ q, g'.logicalAt q
    = (arriving g f.pinLogical q (outletsFrom f.blockGraphs i cs)).or (g.logicalAt q)
  := by
  induction cs generalizing g i count with
  | nil =>
    cases pure_eq_ok_iff.mp h
    simp [outletsFrom, arriving]
  | cons c cs ih =>
    obtain ⟨b, hb, h⟩ := bind_eq_ok_iff.mp h
    obtain ⟨⟨here, g''⟩, hpins, h⟩ := bind_eq_ok_iff.mp h
    obtain ⟨⟨beyond, _⟩, hrest, h⟩ := bind_eq_ok_iff.mp h
    cases pure_eq_ok_iff.mp h
    have hc : f.clusters[i]? = some c := hcs 0 c rfl
    have hprimed := hf.cluster ⟨hc, hb⟩
    rw [← size_eq_of_view_eq hg] at hprimed
    obtain ⟨hsame, hhere⟩ := logicalAt_of_exportPins (hf.wired.of_silent_eq hg.symm)
      (bound_of_primed hprimed) (pinLogical_eq hc) hpins
    obtain ⟨hsame', hbeyond⟩ := ih (i := i + 1) (hsame.trans hg) (by
      intro k c' hc'
      rw [Nat.add_right_comm]
      apply hcs (k + 1) c' hc') hrest
    refine ⟨hsame'.trans hsame, ?_⟩
    intro q
    rw [hbeyond q, hhere q, arriving_of_silent_eq hsame, outletsFrom, arriving_append,
      entry_eq_ok_iff.mp hb, ← Option.or_assoc]
    rfl

/-- The outputs of clusters can be moved to the graph exactly if links do not lead back to the nodes
of those that carry a logical net. -/
theorem Primed.exists_exportClusters_iff {i : Nat} {cs : List Cluster} (hf : f.Primed)
    (hg : g.silent = f.graph.silent)
    (hcs : ∀ (k : Nat) c, cs[k]? = some c → f.clusters[i + k]? = some c) :
  (∃ count g', exportClusters f g cs = .ok (count, g'))
    ↔ ∀ o ∈ outletsFrom f.blockGraphs i cs, f.pinLogical o.pin ≠ none →
      ¬ TransGen f.graph.Linked o.node o.node
  := by
  induction cs generalizing g i with
  | nil =>
    simp only [outletsFrom, List.not_mem_nil, false_imp_iff, implies_true, iff_true]
    exact ⟨0, g, rfl⟩
  | cons c cs ih =>
    have hc : f.clusters[i]? = some c := hcs 0 c rfl
    obtain ⟨b, hb, hprimed⟩ := hf.clusters i c hc
    rw [← size_eq_of_view_eq hg] at hprimed
    have hwired := hf.wired.of_silent_eq hg.symm
    have hbound := bound_of_primed hprimed
    have hhere := exists_exportPins_iff hwired hbound (pinLogical_eq hc)
    rw [linked_congr hg] at hhere
    have hcons : (∀ o ∈ outletsFrom f.blockGraphs i (c :: cs), f.pinLogical o.pin ≠ none →
        ¬ TransGen f.graph.Linked o.node o.node)
        ↔ (∀ o ∈ outletsOf i b c.locals.bindings, f.pinLogical o.pin ≠ none →
          ¬ TransGen f.graph.Linked o.node o.node)
          ∧ ∀ o ∈ outletsFrom f.blockGraphs (i + 1) cs, f.pinLogical o.pin ≠ none →
            ¬ TransGen f.graph.Linked o.node o.node := by
      rw [outletsFrom, entry_eq_ok_iff.mp hb]
      apply List.forall_mem_append
    have hafter : ∀ here g'', exportPins b c g c.locals.bindings = .ok (here, g'') →
        ((∃ count g', exportClusters f g'' cs = .ok (count, g'))
          ↔ ∀ o ∈ outletsFrom f.blockGraphs (i + 1) cs, f.pinLogical o.pin ≠ none →
            ¬ TransGen f.graph.Linked o.node o.node) := by
      intro here g'' hpins
      obtain ⟨hsame, -⟩ := logicalAt_of_exportPins hwired hbound (pinLogical_eq hc) hpins
      apply ih (hsame.trans hg)
      intro k c' hc'
      rw [Nat.add_right_comm]
      apply hcs (k + 1) c' hc'
    rw [hcons, ← hhere]
    constructor
    · rintro ⟨count, g', h⟩
      rw [exportClusters, hb, ok_bind] at h
      obtain ⟨⟨here, g''⟩, hpins, h⟩ := bind_eq_ok_iff.mp h
      obtain ⟨⟨beyond, last⟩, hrest, -⟩ := bind_eq_ok_iff.mp h
      exact ⟨⟨here, g'', hpins⟩, (hafter here g'' hpins).mp ⟨beyond, last, hrest⟩⟩
    · rintro ⟨⟨here, g'', hpins⟩, hrest⟩
      obtain ⟨beyond, last, hrest⟩ := (hafter here g'' hpins).mpr hrest
      refine ⟨here + beyond, last, ?_⟩
      rw [exportClusters, hb, ok_bind]
      exact bind_eq_ok_iff.mpr ⟨_, hpins, bind_eq_ok_iff.mpr ⟨_, hrest, rfl⟩⟩

/-- Moving outputs to the graph leaves nodes with what arrives, and changes nothing but logical nets
of nodes. -/
theorem Primed.exportOutputs (hf : f.Primed) (h : f.exportOutputs = .ok (count, f')) :
  f'.silent = f.silent ∧ f'.clusters = f.clusters ∧ ∀ q, f'.graph.logicalAt q
    = (arriving f.graph f.pinLogical q f.outlets).or (f.graph.logicalAt q)
  := by
  obtain ⟨⟨count', g⟩, hexport, h⟩ := bind_eq_ok_iff.mp h
  cases pure_eq_ok_iff.mp h
  obtain ⟨hsame, hlogical⟩ := hf.logicalAt_of_exportClusters (i := 0) rfl (by simp) hexport
  refine ⟨?_, rfl, hlogical⟩
  simp only [silent, hsame]

/-- Outputs can be moved to the graph exactly if links do not lead back to the nodes of those that
carry a logical net. -/
theorem Primed.exists_exportOutputs_iff (hf : f.Primed) :
  (∃ count f', f.exportOutputs = .ok (count, f'))
    ↔ ∀ p node, f.OutputOn p node → f.pinLogical p ≠ none → ¬ TransGen f.graph.Linked node node
  := by
  have hcs : ∀ (k : Nat) c, f.clusters.toList[k]? = some c → f.clusters[0 + k]? = some c := by
    simp
  have hiff := hf.exists_exportClusters_iff rfl hcs
  have hleft : (∃ count f', f.exportOutputs = .ok (count, f'))
      ↔ ∃ count g, exportClusters f f.graph f.clusters.toList = .ok (count, g) := by
    constructor
    · rintro ⟨count, f', h⟩
      obtain ⟨⟨count', g⟩, hexport, -⟩ := bind_eq_ok_iff.mp h
      exact ⟨count', g, hexport⟩
    · rintro ⟨count, g, hexport⟩
      exact ⟨count, _, bind_eq_ok_iff.mpr ⟨_, hexport, rfl⟩⟩
  rw [hleft, hiff]
  constructor
  · intro h p node hnode
    apply h ⟨p, node⟩ (mem_outlets_iff.mpr hnode)
  · intro h o ho
    apply h o.pin o.node (mem_outlets_iff.mp ho)

/-- A node that comes to carry another logical net, although outputs have been moved to the graph
before, is covered by an output that carries another one than then. -/
theorem Primed.exists_output {before after f₀ : Fabric} {count' : Nat} (hbefore : before.Primed)
    (hexport : before.exportOutputs = .ok (count, f₀)) (hgraph : f.graph = f₀.graph)
    (hsame : f.silent = before.silent) (hf : f.Primed)
    (hexport' : f.exportOutputs = .ok (count', after))
    (hne : f.graph.logicalAt q ≠ after.graph.logicalAt q) :
  ∃ p, f.Covers p q ∧ before.pinLogical p ≠ f.pinLogical p
  := by
  by_contra hnone
  obtain ⟨-, -, hlogical⟩ := hbefore.exportOutputs hexport
  obtain ⟨-, -, hlogical'⟩ := hf.exportOutputs hexport'
  have harrives : arriving before.graph before.pinLogical q before.outlets
      = arriving f.graph f.pinLogical q f.outlets := by
    rw [outlets_congr hsame, arriving_of_silent_eq (graph_silent_eq hsame.symm)]
    apply arriving_congr
    intro o ho hreaches
    by_contra hdiffers
    rw [← outlets_congr hsame] at ho
    apply hnone ⟨o.pin, ⟨o.node, mem_outlets_iff.mp ho, hreaches⟩, hdiffers⟩
  have hold := hlogical q
  rw [← hgraph, harrives] at hold
  apply hne
  rw [hlogical' q, hold, ← Option.or_assoc, Option.or_self]

end Fabric

end RoutingFabric
