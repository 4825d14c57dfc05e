import RoutingFabric.Proofs.RoutingGraph.Forwarding

/-!
# Routing trees

After tracing, the selected drivers lead from every node of a net to the node that the trace of the
net starts with, and on the way they pass no node twice. The first node is the root of a tree, and
has selected no driver, unless the trace leads back to it: nothing stops a node without a driver
from being given one later on. Links form a loop exactly then, and the loop passes the first node.
-/

namespace RoutingFabric.RoutingGraph

open Relation

/-- Following selected drivers leads from the node over those of the path to the root. -/
inductive Climbs (g : RoutingGraph) (root : NodeId) : NodeId → List NodeId → Prop where
  | here : Climbs g root root [root]
  | up {p q : NodeId} {path : List NodeId} (link : g.Linked p q) (rest : Climbs g root p path) :
    Climbs g root q (q :: path)

/-- The trace leads back to the node that it starts with. -/
def Returns (g : RoutingGraph) (trace : List NodeId) : Prop :=
  ∃ p first, trace.head? = some first ∧ g.Leads trace p first

variable {t : NetTable} {skip : Bool} {stats : RoutingStats} {g₀ g : RoutingGraph} {net : NetId}
variable {m : Net} {trace path : List NodeId} {p q root first : NodeId}

/-! ### Climbing -/

/-- Links lead back down from the root. -/
theorem Climbs.reaches (h : g.Climbs root q path) : ReflTransGen g.Linked root q := by
  induction h with
  | here => apply ReflTransGen.refl
  | up link _ ih => apply ih.tail link

/-- The driver of a node on a loop is on the loop. -/
theorem Linked.loop (h : g.Linked p q) (hloop : TransGen g.Linked q q) :
  TransGen g.Linked p p
  := by
  obtain ⟨r, hreaches, hlink⟩ := TransGen.tail'_iff.mp hloop
  rw [hlink.unique h] at hreaches
  apply TransGen.head' h hreaches

/-- Climbing from a node on a loop does not leave the loop. -/
theorem Climbs.loop (h : g.Climbs root q path) (hloop : TransGen g.Linked q q) :
  TransGen g.Linked root root
  := by
  induction h with
  | here => apply hloop
  | up link _ ih => apply ih (link.loop hloop)

/-- Where links follow a legal trace, climbing leads from each of its nodes to the first. The nodes
of the trace are taken in order, so that the driver of a new node has been climbed from before. -/
theorem LegalTrace.exists_climbs (h : g₀.LegalTrace trace)
    (hlinked : ∀ p q, g₀.Leads trace p q → g.Linked p q) (hfirst : trace.head? = some first) :
  ∀ q ∈ trace, ∃ path, g.Climbs first q path ∧ path.Nodup ∧ path ⊆ trace
  := by
  induction trace using List.reverseRecOn with
  | nil => cases hfirst
  | append_singleton part id ih =>
    have hpart : part <+: part ++ [id] := List.prefix_append part [id]
    have hbefore : part ≠ [] → ∀ q ∈ part, ∃ path, g.Climbs first q path ∧ path.Nodup
        ∧ path ⊆ part := by
      intro hne
      apply ih (h.of_prefix hpart)
      · intro p q hleads
        apply hlinked p q (leads_concat_iff.mpr (.inl hleads))
      · rwa [List.head?_append_of_ne_nil part hne] at hfirst
    intro q hq
    by_cases hmem : q ∈ part
    · obtain ⟨path, hclimbs, hnodup, hsub⟩ := hbefore (List.ne_nil_of_mem hmem) q hmem
      exact ⟨path, hclimbs, hnodup, List.Subset.trans hsub hpart.subset⟩
    · obtain rfl : q = id := by
        simpa [hmem] using hq
      cases hstanding : g₀.standing part with
      | start =>
        obtain rfl := standing_eq_start_iff.mp hstanding
        cases hfirst
        exact ⟨[first], .here, List.nodup_singleton first, List.Subset.refl _⟩
      | branch => cases hmem (h.fits.rejoins hstanding)
      | «from» p =>
        obtain ⟨hlast, -⟩ := standing_eq_from_iff.mp hstanding
        have hp := List.mem_of_getLast? hlast
        obtain ⟨path, hclimbs, hnodup, hsub⟩ := hbefore (List.ne_nil_of_mem hp) p hp
        have hlink : g.Linked p q := hlinked p q (leads_concat_iff.mpr (.inr ⟨rfl, hstanding⟩))
        refine ⟨q :: path, .up hlink hclimbs, ?_, ?_⟩
        · apply List.nodup_cons.mpr ⟨_, hnodup⟩
          intro hpath
          apply hmem (hsub hpath)
        · apply List.cons_subset.mpr ⟨hq, List.Subset.trans hsub hpart.subset⟩

/-! ### Links after tracing -/

/-- After tracing, links are where traces lead. -/
theorem Traced.linked_iff (h : Traced t skip g₀ stats g) (hlegal : LegalTraces t skip g₀) :
  g.Linked p q ↔ ∃ net, LeadsAlong t skip g₀ net p q
  := by
  constructor
  · rintro ⟨n, s, hn, hs, rfl⟩
    apply (((h.marked.nodes q n hn).selected s).mp hs).1
  · rintro ⟨net, m, hm, hleads⟩
    obtain ⟨n₀, hn₀, hdriver⟩ := (hlegal.legal net m hm).2.driven p q hleads
    obtain ⟨n, hn, hsame⟩ := exists_node_of_view_eq h.marked.same.symm hn₀
    have hdrivers : n₀.drivers = n.drivers := by
      simpa using congrArg Node.drivers hsame
    rw [hdrivers] at hdriver
    obtain ⟨s, rfl, hselects⟩ := n.exists_selects hdriver
    exact ⟨n, s, hn, ((h.marked.nodes q n hn).selected s).mpr ⟨⟨net, m, hm, hleads⟩, hselects⟩, rfl⟩

/-- After tracing, links lead to a node of a net only along the trace of that net. -/
theorem Traced.linked_iff_leads (h : Traced t skip g₀ stats g) (hlegal : LegalTraces t skip g₀)
    (hm : t.Routed skip net m) (hq : q ∈ m.trace) :
  g.Linked p q ↔ g₀.Leads m.trace p q
  := by
  rw [h.linked_iff hlegal]
  constructor
  · rintro ⟨net', hleads⟩
    rw [hlegal.apart net' net q hleads.holds ⟨m, hm, hq⟩] at hleads
    apply (leadsAlong_iff hm p q).mp hleads
  · intro hleads
    use net, m, hm

/-- After tracing, climbing leads from a node of a net to the first node of its trace. -/
theorem Traced.exists_climbs (h : Traced t skip g₀ stats g) (hlegal : LegalTraces t skip g₀)
    {n : Node} (hn : g.node q = .ok n) (hnet : n.net = some net) :
  ∃ m first path, t.Routed skip net m ∧ m.trace.head? = some first ∧ g.Climbs first q path
    ∧ path.Nodup
  := by
  obtain ⟨m, hm, hq⟩ := ((h.marked.nodes q n hn).net net).mp hnet
  obtain ⟨hne, htrace⟩ := hlegal.legal net m hm
  obtain ⟨first, hfirst⟩ : ∃ first, m.trace.head? = some first := ⟨_, List.head?_eq_some_head hne⟩
  have hlinked : ∀ p q, g₀.Leads m.trace p q → g.Linked p q := by
    intro p q hleads
    apply (h.linked_iff_leads hlegal hm hleads.mem).mpr hleads
  obtain ⟨path, hclimbs, hnodup, -⟩ := htrace.exists_climbs hlinked hfirst q hq
  exact ⟨m, first, path, hm, hfirst, hclimbs, hnodup⟩

/-! ### Loops -/

/-- The first node of a trace has selected no driver exactly if the trace does not lead back to it.
-/
theorem Traced.selected_eq_none_iff (h : Traced t skip g₀ stats g) (hlegal : LegalTraces t skip g₀)
    (hm : t.Routed skip net m) (hfirst : m.trace.head? = some first) {n : Node}
    (hn : g.node first = .ok n) :
  n.selected = none ↔ ¬ g₀.Returns m.trace
  := by
  have hmem := List.mem_of_head? hfirst
  constructor
  · rintro hnone ⟨p, first', hfirst', hleads⟩
    rw [hfirst] at hfirst'
    cases hfirst'
    obtain ⟨n', s, hn', hs, -⟩ := (h.linked_iff_leads hlegal hm hmem).mpr hleads
    rw [hn] at hn'
    cases hn'
    rw [hnone] at hs
    cases hs
  · intro hreturns
    apply Option.eq_none_iff_forall_ne_some.mpr
    intro s hs
    apply hreturns
    exact ⟨s.driver, first, hfirst, (h.linked_iff_leads hlegal hm hmem).mp ⟨n, s, hn, hs, rfl⟩⟩

/-- A trace that leads back to its first node makes links form a loop. -/
theorem Traced.loop_of_returns (h : Traced t skip g₀ stats g) (hlegal : LegalTraces t skip g₀)
    (hm : t.Routed skip net m) (hreturns : g₀.Returns m.trace) :
  ∃ first, m.trace.head? = some first ∧ TransGen g.Linked first first
  := by
  obtain ⟨p, first, hfirst, hleads⟩ := hreturns
  have hlinked : ∀ p q, g₀.Leads m.trace p q → g.Linked p q := by
    intro p q hleads
    apply (h.linked_iff_leads hlegal hm hleads.mem).mpr hleads
  have hp : p ∈ m.trace := hleads.1.subset List.mem_cons_self
  obtain ⟨path, hclimbs, -⟩ := (hlegal.legal net m hm).2.exists_climbs hlinked hfirst p hp
  exact ⟨first, hfirst, TransGen.tail' hclimbs.reaches (hlinked p first hleads)⟩

/-- Links form a loop only if a trace leads back to its first node. -/
theorem Traced.returns_of_loop (h : Traced t skip g₀ stats g) (hlegal : LegalTraces t skip g₀)
    (hloop : TransGen g.Linked q q) :
  ∃ net m, t.Routed skip net m ∧ g₀.Returns m.trace
  := by
  obtain ⟨p, -, hlink⟩ := TransGen.tail'_iff.mp hloop
  obtain ⟨net, hleads⟩ := (h.linked_iff hlegal).mp hlink
  obtain ⟨n, s, hn, -⟩ := hlink
  have hnet : n.net = some net := ((h.marked.nodes q n hn).net net).mpr hleads.holds
  obtain ⟨m, first, path, hm, hfirst, hclimbs, -⟩ := h.exists_climbs hlegal hn hnet
  obtain ⟨p', -, hlink'⟩ := TransGen.tail'_iff.mp (hclimbs.loop hloop)
  exact ⟨net, m, hm, p', first, hfirst,
    (h.linked_iff_leads hlegal hm (List.mem_of_head? hfirst)).mp hlink'⟩

/-- Logical nets can be forwarded from all nodes exactly if no trace leads back to its first node.
-/
theorem Traced.exists_forwardLogical_iff (h : Traced t skip g₀ stats g)
    (hlegal : LegalTraces t skip g₀) (hconnected : g₀.Connected) :
  (∀ id < g.size, ∃ count g', g.forwardLogical id = .ok (count, g'))
    ↔ ∀ net m, t.Routed skip net m → ¬ g₀.Returns m.trace
  := by
  have hwired := h.wired hconnected
  constructor
  · intro hends net m hm hreturns
    obtain ⟨first, -, hloop⟩ := h.loop_of_returns hlegal hm hreturns
    obtain ⟨p, -, hlink⟩ := TransGen.tail'_iff.mp hloop
    apply (RoutingGraph.exists_forwardLogical_iff hwired hlink.lt).mp (hends first hlink.lt) hloop
  · intro hreturns id hid
    apply (RoutingGraph.exists_forwardLogical_iff hwired hid).mpr
    intro hloop
    obtain ⟨net, m, hm, htrace⟩ := h.returns_of_loop hlegal hloop
    apply hreturns net m hm htrace

end RoutingFabric.RoutingGraph
