import RoutingFabric.Proofs.RoutingGraph.Drivers
import RoutingFabric.Proofs.TwoRuns
import RoutingFabric.RoutingGraph.Lookup

/-!
# Stale data in a graph

A graph that is prepared may hold data that were derived before. Preparing overwrites them: two
graphs that are the same without what is derived are prepared with one outcome, and are then the
same without what the routed design adds. The latter is neither read nor changed.
-/

namespace RoutingFabric.RoutingGraph

/-- The node without all that is derived, apart from its drivers. -/
def Node.driven (n : Node) : Node := { n.bare with drivers := n.drivers }

variable {g g' s t : RoutingGraph} {id : NodeId} {r r' : Node → Node}

/-! ### What does not depend on derived data -/

/-- What does not depend on derived data is the same in graphs that differ in these only. -/
theorem congr_of_bare_eq {α : Type} (F : RoutingGraph → α) (hF : ∀ g, F g.bare = F g)
    (h : g.bare = g'.bare) :
  F g = F g'
  := by
  rw [← hF, h, hF]

/-- Graphs that are seen the same are so too where less is seen of them. -/
theorem view_eq_of_view_eq (h : g.view r = g'.view r) (hr : ∀ n, r' (r n) = r' n) :
  g.view r' = g'.view r'
  := by
  have hless : ∀ g : RoutingGraph, (g.view r).view r' = g.view r' := by
    intro g
    rw [view, view, view, Array.map_map]
    congr 2
    funext n
    apply hr
  rw [← hless, h, hless]

/-- Graphs that are seen the same are the same without derived data, where only these are not seen.
-/
theorem bare_eq_of_view_eq (h : g.view r = g'.view r) (hr : ∀ n, (r n).bare = n.bare) :
  g.bare = g'.bare
  := congrArg (fun g : RoutingGraph => { g with lookup := [] }) (view_eq_of_view_eq h hr)

/-- A node is described without derived data. -/
theorem describe_bare (g : RoutingGraph) : g.bare.describe = g.describe := by
  funext id
  rw [describe, describe, bare, Array.getElem?_map]
  cases g.nodes[id]? <;> rfl

/-- Deriving data does not change the number of nodes. -/
theorem size_bare (g : RoutingGraph) : g.bare.size = g.size := by
  apply Array.size_map

/-- Edges are no derived data. -/
theorem links_bare (g : RoutingGraph) : g.bare.links = g.links := by
  rw [links, links, bare, Array.toList_map, List.zipIdx_map, List.flatMap_map]
  rfl

/-- The table of drivers does not depend on derived data. -/
theorem driverTable_bare (g : RoutingGraph) : g.bare.driverTable = g.driverTable := by
  rw [driverTable, driverTable, links_bare, size_bare]

/-- The number of a node is no derived data. -/
theorem ptcOf_bare (g : RoutingGraph) : g.bare.ptcOf = g.ptcOf := by
  funext id
  rw [ptcOf, ptcOf, bare, Array.getElem?_map]
  cases g.nodes[id]? <;> rfl

/-- The place of a node is no derived data. -/
theorem isAt_bare (g : RoutingGraph) : g.bare.isAt = g.isAt := by
  funext kind tile id
  rw [isAt, isAt, bare, Array.getElem?_map]
  cases g.nodes[id]? <;> rfl

/-- The order of nodes does not depend on derived data. -/
theorem comesFirst_bare (g : RoutingGraph) : g.bare.comesFirst = g.comesFirst := by
  funext p q
  rw [comesFirst, comesFirst, ptcOf_bare]

/-- Nodes that were put in order before are put in the same order again. -/
theorem view_buildLookup (h : g.bare = g'.bare) :
  g.buildLookup.view Node.bare = g'.buildLookup.view Node.bare
  := by
  have hlookup : g.buildLookup.lookup = g'.buildLookup.lookup := by
    rw [buildLookup, buildLookup, ids, ids, congr_of_bare_eq size size_bare h,
      congr_of_bare_eq comesFirst comesFirst_bare h]
  calc g.buildLookup.view Node.bare
    _ = { g.bare with lookup := g.buildLookup.lookup } := rfl
    _ = { g'.bare with lookup := g'.buildLookup.lookup } := by rw [h, hlookup]
    _ = g'.buildLookup.view Node.bare := rfl

/-- Pins are found without what the routed design adds. -/
theorem findPin_congr (h : g.unannotated = g'.unannotated) : g.findPin = g'.findPin := by
  have hbare : g.bare = g'.bare := bare_eq_of_view_eq (r := Node.unannotated) h fun _ => rfl
  have hlookup : g.lookup = g'.lookup := by injection h
  funext kind tile pin
  rw [findPin, findPin, nodesAt, nodesAt, hlookup, congr_of_bare_eq isAt isAt_bare hbare,
    congr_of_bare_eq ptcOf ptcOf_bare hbare]

/-! ### Two graphs -/

/-- The nodes of two graphs at an id are seen the same. -/
def SameAt (r : Node → Node) (id : NodeId) (g g' : RoutingGraph) : Prop :=
  ∀ n n', g.node id = .ok n → g'.node id = .ok n' → r n = r n'

/-- Two graphs come from two others that are seen the same, and more is seen the same at one node.
-/
structure Refined (r r' : Node → Node) (id : NodeId) (g g' s t : RoutingGraph) : Prop where
  view : s.view r = t.view r
  size : s.size = g.size
  here : SameAt r' id s t
  others : ∀ q, SameAt r' q g g' → SameAt r' q s t

/-- Nodes of graphs that are seen the same are looked up alike. -/
theorem related_node (h : g.view r = g'.view r) :
  Related (fun n n' => r n = r n') (g.node id) (g'.node id)
  := related_entry id (congrArg nodes h)

/-- Changing a node of two graphs lets more of it be seen the same. -/
theorem refined_of_modify (h : g.view r = g'.view r) {f : Node → Node} (hf : ∀ n, r (f n) = r n)
    (hseen : ∀ n n', r n = r n' → r' (f n) = r' (f n')) (hs : g.modify id f = .ok s)
    (ht : g'.modify id f = .ok t) :
  Refined r r' id g g' s t
  := by
  -- the node at the id is changed in both graphs, any other in neither
  have hchanged : ∀ q, (q ≠ id → SameAt r' q g g') → SameAt r' q s t := by
    intro q hq n n' hn hn'
    obtain ⟨old, hold, rfl⟩ := node_of_modify hs hn
    obtain ⟨old', hold', rfl⟩ := node_of_modify ht hn'
    split
    · obtain ⟨m, hm, heq⟩ := exists_node_of_view_eq h hold
      rw [hold'] at hm
      cases hm
      apply hseen old old' heq
    · rename_i hne
      apply hq hne old old' hold hold'
  constructor
  case view => rw [view_of_modify hs hf, view_of_modify ht hf, h]
  case size => apply size_of_modify hs
  case here =>
    apply hchanged
    intro hne
    contradiction
  case others =>
    intro q hq
    apply hchanged
    intro _
    apply hq

/-- A node is changed alike in graphs that are seen the same. -/
theorem related_modify (h : g.view r = g'.view r) {f : Node → Node} (hf : ∀ n, r (f n) = r n)
    (hseen : ∀ n n', r n = r n' → r' (f n) = r' (f n')) :
  Related (Refined r r' id g g') (g.modify id f) (g'.modify id f)
  := by
  apply (related_alter id f (size_eq_of_view_eq h)).bind
  rintro xs xs' ⟨hxs, hxs'⟩
  apply Related.ok
  apply refined_of_modify h hf hseen
  · exact bind_eq_ok_iff.mpr ⟨xs, hxs, rfl⟩
  · exact bind_eq_ok_iff.mpr ⟨xs', hxs', rfl⟩

/-- Graphs of which each node is seen the same are seen the same. -/
theorem view_eq_of_sameAt (h : g.view r = g'.view r) (hall : ∀ q < g.size, SameAt r' q g g') :
  g.view r' = g'.view r'
  := by
  have hnodes : g.nodes.map r' = g'.nodes.map r' := by
    apply Array.ext_getElem?
    intro q
    rw [Array.getElem?_map, Array.getElem?_map]
    cases hn : g.nodes[q]? with
    | none => rw [getElem?_eq_none_of_map_eq (congrArg nodes h) hn]
    | some n =>
      rw [← entry_eq_ok_iff] at hn
      obtain ⟨n', hn', -⟩ := exists_node_of_view_eq h hn
      have hsame := hall q (lt_of_node_eq hn) n n' hn hn'
      rw [entry_eq_ok_iff.mp hn', Option.map_some, Option.map_some, hsame]
  rw [view, view, hnodes]
  injection h with hswitches _ hlookup
  rw [hswitches, hlookup]

/-- A loop that lets more of each node be seen the same lets more be seen the same. -/
theorem agree_each_node {ι : Type} {p : ι → Phase RoutingGraph Unit} {is : List ι}
    (r' : Node → Node) (node : ι → NodeId) (h : s.view r = t.view r)
    (hall : ∀ q < s.size, ∃ i ∈ is, node i = q)
    (hstep : ∀ i ∈ is, ∀ g g', g.view r = g'.view r →
      (p i).Agree (Refined r r' (node i) g g') g (p i) g') :
  (Phase.each p is).Agree (fun s' t' => s'.view r' = t'.view r') s (Phase.each p is) t
  := by
  have hloop := Phase.agree_each (R := fun s' t' => s'.view r = t'.view r ∧ s'.size = s.size)
    (Q := fun i => SameAt r' (node i)) ⟨h, rfl⟩ (by
      rintro i hi g g' ⟨hview, hsize⟩
      apply (hstep i hi g g' hview).imp
      intro s' t' hrefined
      exact ⟨⟨hrefined.view, hrefined.size.trans hsize⟩, hrefined.here, fun j => hrefined.others _⟩)
  apply hloop.imp
  rintro s' t' ⟨⟨hview, hsize⟩, hsame, -⟩
  apply view_eq_of_sameAt hview
  intro q hq
  rw [hsize] at hq
  obtain ⟨i, hi, rfl⟩ := hall q hq
  apply hsame i hi

/-! ### Two preparations -/

/-- A node is given its drivers alike, whichever it had before. -/
theorem agree_assignTo (i : NodeId × List Driver) (h : g.view Node.bare = g'.view Node.bare) :
  (assignTo i).Agree (Refined Node.bare Node.driven i.1 g g') g (assignTo i) g'
  := by
  have hdescribe := congr_of_bare_eq describe describe_bare (bare_eq_of_view_eq h fun _ => rfl)
  apply Phase.agree_state_bind
  apply Phase.agree_lift_bind (related_node h)
  rintro n n' heq - -
  have hfanIn : n.fanIn = n'.fanIn := by injection heq
  rw [hfanIn, hdescribe]
  split
  · apply Phase.agree_lift_bind (T := Refined Node.bare Node.driven i.1 g g')
    · apply related_modify h
      · intro n
        rfl
      · intro n n' heq
        exact congrArg (fun n : Node => { n with drivers := i.2 }) heq
    · rintro s' t' hrefined - -
      apply Phase.agree_put hrefined
  · apply Phase.agree_stop

/-- All nodes are given their drivers alike, whichever they had before. -/
theorem agree_buildDriverIndex (h : s.view Node.bare = t.view Node.bare) :
  buildDriverIndex.Agree (fun s' t' => s'.view Node.driven = t'.view Node.driven) s
    buildDriverIndex t
  := by
  have hbare := bare_eq_of_view_eq h fun _ => rfl
  have hsize := size_eq_of_view_eq h
  have hlarge : (s.nodes.any fun n => tableLimit < driverBytes * n.fanIn)
      = t.nodes.any fun n => tableLimit < driverBytes * n.fanIn := by
    apply congr_of_bare_eq (·.nodes.any fun n => tableLimit < driverBytes * n.fanIn) _ hbare
    intro g
    rw [bare, Array.any_map]
    rfl
  apply Phase.agree_state_bind
  rw [hlarge, congr_of_bare_eq links links_bare hbare, hsize,
    congr_of_bare_eq describe describe_bare hbare,
    congr_of_bare_eq driverTable driverTable_bare hbare]
  split
  · apply Phase.agree_stop
  · split
    · apply Phase.agree_stop
    · apply Phase.Agree.bind (R := fun s' t' => s'.view Node.driven = t'.view Node.driven)
      · apply agree_each_node Node.driven Prod.fst h
        · intro q hq
          rw [hsize, ← size_driverTable] at hq
          refine ⟨(q, t.driverTable[q]), ?_, rfl⟩
          apply mem_map_zipIdx_iff.mpr (Array.getElem?_eq_getElem hq)
        · intro i _ g g'
          apply agree_assignTo
      · rintro _ s' t' hview
        apply Phase.agree_report
        apply hview

/-- A node comes to know the switch of its drivers alike, whichever it knew before. -/
theorem agree_identifyAt (id : NodeId) (h : g.view Node.driven = g'.view Node.driven) :
  (identifyAt id).Agree (Refined Node.driven Node.unannotated id g g') g (identifyAt id) g'
  := by
  have hdescribe := congr_of_bare_eq describe describe_bare (bare_eq_of_view_eq h fun _ => rfl)
  apply Phase.agree_state_bind
  apply Phase.agree_lift_bind (T := Refined Node.driven Node.unannotated id g g')
  · apply (related_node h).bind
    intro n n' heq
    have hkind : n.kind = n'.kind ∧ n.direction = n'.direction ∧ n.drivers = n'.drivers := by
      injection heq
      refine ⟨?_, ?_, ?_⟩ <;> assumption
    obtain ⟨hkind, hdirection, hdrivers⟩ := hkind
    rw [hkind, hdirection, hdrivers, hdescribe]
    split
    · apply related_fail
    · split
      · apply related_modify h
        · intro n
          rfl
        · rename_i driverSwitch _
          intro n n' heq
          exact congrArg (fun n : Node => { n with driverSwitch }) heq
      · apply related_fail
  · rintro s' t' hrefined - -
    apply Phase.agree_put hrefined

/-- All nodes come to know the switches of their drivers alike, whichever they knew before. -/
theorem agree_identifyDriverSwitches (h : s.view Node.driven = t.view Node.driven) :
  identifyDriverSwitches.Agree (fun s' t' => s'.unannotated = t'.unannotated) s
    identifyDriverSwitches t
  := by
  have hids : s.ids = t.ids := by rw [ids, ids, size_eq_of_view_eq h]
  apply Phase.agree_state_bind
  rw [hids]
  apply agree_each_node Node.unannotated id h
  · intro q hq
    refine ⟨q, ?_, rfl⟩
    rw [← hids]
    apply List.mem_range.mpr hq
  · intro q _ g g'
    apply agree_identifyAt

/-- Graphs that are the same without derived data are prepared alike. -/
theorem agree_prepare (h : s.bare = t.bare) :
  Phase.Agree (fun s' t' => s'.unannotated = t'.unannotated)
    (do buildDriverIndex; identifyDriverSwitches) s.buildLookup
    (do buildDriverIndex; identifyDriverSwitches) t.buildLookup
  := by
  apply (agree_buildDriverIndex (view_buildLookup h)).bind
  intro _ s' t'
  apply agree_identifyDriverSwitches

/-! ### Annotations -/

/-- Nets are traced alike, whatever the routed design added before. -/
theorem agree_traceAll {nets : NetTable} {skip : Bool} (h : g.unannotated = g'.unannotated) :
  (traceAll nets skip).Agree Eq g (traceAll nets skip) g'
  := by
  apply Phase.agree_state_bind
  apply Phase.agree_put_bind
  rw [h]
  apply Phase.agree_self

/-- Preparing a graph changes drivers and their switches only. -/
theorem undriven_of_prepare
    (h : (do buildDriverIndex; identifyDriverSwitches : Phase RoutingGraph Unit).Gives g () g') :
  g'.view Node.undriven = g.view Node.undriven
  := by
  obtain ⟨_, g₁, hindex, hswitches⟩ := Phase.gives_bind_iff.mp h
  obtain ⟨-, -, hassign⟩ := gives_buildDriverIndex hindex
  apply Phase.each_induction (gives_identifyDriverSwitches_iff.mp hswitches)
    (I := fun s => s.view Node.undriven = g.view Node.undriven)
  · apply undriven_of_assignDrivers hassign
  · intro id _ s s' hs hstep
    obtain ⟨driverSwitch, hmodify⟩ := gives_identifyAt hstep
    exact (view_of_modify (r := Node.undriven) hmodify fun _ => rfl).trans hs

/-- Graphs that are the same without drivers, and without what the routed design adds, are equal. -/
theorem eq_of_unannotated_eq (h : g.unannotated = g'.unannotated)
    (hundriven : g.nodes.map Node.undriven = g'.nodes.map Node.undriven) :
  g = g'
  := by
  obtain ⟨hswitches, hnodes, hlookup⟩ : g.switches = g'.switches
      ∧ g.nodes.map Node.unannotated = g'.nodes.map Node.unannotated ∧ g.lookup = g'.lookup := by
    injection h with hswitches hnodes hlookup
    exact ⟨hswitches, hnodes, hlookup⟩
  have hnodes := eq_of_map_eq hnodes hundriven (by
    intro n n' h h'
    cases n
    cases n'
    simp_all [Node.unannotated, Node.undriven])
  cases g
  cases g'
  simp_all

end RoutingFabric.RoutingGraph
