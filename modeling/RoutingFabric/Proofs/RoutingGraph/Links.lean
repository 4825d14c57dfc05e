import RoutingFabric.Proofs.RoutingGraph.Drivers
import RoutingFabric.Proofs.RoutingGraph.Tracing
import RoutingFabric.RoutingGraph.Selected

/-!
# Links between nodes

A link leads from the selected driver of a node to the node. In a graph that has been traced, the
links out of a node are found by looking along its edges. Links do not depend on the nets that
nodes carry.
-/

namespace RoutingFabric.RoutingGraph

/-- The second node has selected the first as its driver. -/
def Linked (g : RoutingGraph) (p q : NodeId) : Prop :=
  ∃ n s, g.node q = .ok n ∧ n.selected = some s ∧ s.driver = p

/-- Edges lead to nodes, and links follow edges. -/
structure Wired (g : RoutingGraph) : Prop where
  sinks : ∀ p place q, g.HasEdge p place q → q < g.size
  selected : ∀ q n s, g.node q = .ok n → n.selected = some s → g.HasEdge s.driver s.edge q

variable {g g' g₀ : RoutingGraph} {id p p' q : NodeId}

/-! ### Links -/

/-- A node is reached by one link at most. -/
theorem Linked.unique (h : g.Linked p q) (h' : g.Linked p' q) : p = p' := by
  obtain ⟨n, s, hn, hs, rfl⟩ := h
  obtain ⟨n', s', hn', hs', rfl⟩ := h'
  rw [hn] at hn'
  cases hn'
  rw [hs] at hs'
  cases hs'
  rfl

/-- A link leads to a node of the graph. -/
theorem Linked.lt (h : g.Linked p q) : q < g.size := by
  obtain ⟨n, s, hn, -⟩ := h
  apply lt_of_node_eq hn

/-- A relation of the selected drivers to their nodes holds along links. -/
theorem Linked.of_selected {R : NodeId → NodeId → Prop} (h : g.Linked p q)
    (hall : ∀ q < g.size, ∀ n ∈ g.nodes[q]?, ∀ s ∈ n.selected, R s.driver q) :
  R p q
  := by
  have hq := h.lt
  obtain ⟨n, s, hn, hs, rfl⟩ := h
  apply hall q hq n (entry_eq_ok_iff.mp hn) s hs

/-- Links are kept where only logical nets change. -/
theorem Linked.of_silent_eq (h : g.Linked p q) (hsame : g.silent = g'.silent) : g'.Linked p q := by
  obtain ⟨n, s, hn, hs, hdriver⟩ := h
  obtain ⟨n', hn', heq⟩ := exists_node_of_view_eq hsame hn
  have hselected : n.selected = n'.selected := by
    injection heq
  exact ⟨n', s, hn', by rw [← hselected, hs], hdriver⟩

/-- Graphs that differ in logical nets only have the same links. -/
theorem linked_congr (hsame : g.silent = g'.silent) : g.Linked = g'.Linked := by
  funext p q
  apply propext
  constructor
  · intro h
    apply h.of_silent_eq hsame
  · intro h
    apply h.of_silent_eq hsame.symm

/-! ### Links along edges -/

/-- A selection is made from a driver with the edge. -/
theorem Node.Selects.exists_edge {n : Node} {s : Selection} (h : n.Selects s) :
  ∃ d ∈ n.drivers, d.node = s.driver ∧ d.edge = s.edge
  := by
  obtain ⟨hfind, hedge⟩ := h
  obtain ⟨hpath, hdriver, -⟩ := List.findIdx?_eq_some_iff_getElem.mp hfind
  rw [List.getElem?_eq_getElem hpath, Option.map_some, Option.some.injEq] at hedge
  exact ⟨n.drivers[s.path], List.getElem_mem hpath, by simpa using hdriver, hedge⟩

/-- After tracing a connected graph, links follow edges. -/
theorem Traced.wired {t : NetTable} {skip : Bool} {stats : RoutingStats}
    (h : Traced t skip g₀ stats g) (hconnected : g₀.Connected) :
  g.Wired
  := by
  have hg : g.Connected := by
    apply hconnected.of_view_eq h.marked.same.symm
    intro n n' heq
    injection heq
    constructor <;> assumption
  constructor
  · apply hg.sinks
  · intro q n s hn hs
    obtain ⟨-, hselects⟩ := ((h.marked.nodes q n hn).selected s).mp hs
    obtain ⟨d, hd, hdriver, hedge⟩ := hselects.exists_edge
    rw [← hdriver, ← hedge]
    apply hg.drivers q n hn d hd

/-- Links follow edges whatever logical nets the nodes carry. -/
theorem Wired.of_silent_eq (h : g.Wired) (hsame : g.silent = g'.silent) : g'.Wired := by
  have hedges : ∀ n n' : Node, n.silent = n'.silent → n.edges = n'.edges := by
    intro n n' heq
    injection heq
  constructor
  · intro p place q hedge
    rw [← size_eq_of_view_eq hsame]
    apply h.sinks p place q (hedge.of_view_eq hsame.symm hedges)
  · intro q n s hn hs
    obtain ⟨n', hn', heq⟩ := exists_node_of_view_eq hsame.symm hn
    have hselected : n.selected = n'.selected := by
      injection heq
    rw [hselected] at hs
    apply (h.selected q n' s hn' hs).of_view_eq hsame hedges

/-! ### The links out of a node -/

/-- The node that an edge leads to, if it has selected the edge of the node at its place. -/
def linkOver (g : RoutingGraph) (id : NodeId) (x : Edge × Nat) : Option NodeId :=
  match (g.nodes[x.1.sink]?).bind (·.selected) with
  | some s => if s.driver = id ∧ s.edge = x.2 then some x.1.sink else none
  | none => none

/-- An edge is a link if the node it leads to has selected it. -/
theorem linkOver_eq_some_iff {x : Edge × Nat} :
  g.linkOver id x = some q
    ↔ x.1.sink = q ∧ ∃ n s, g.node q = .ok n ∧ n.selected = some s ∧ s.driver = id ∧ s.edge = x.2
  := by
  rw [linkOver]
  simp only [node, entry_eq_ok_iff]
  cases hs : (g.nodes[x.1.sink]?).bind (·.selected) with
  | none =>
    simp only [reduceCtorEq, false_iff]
    rintro ⟨rfl, n, s, hn, hselected, -⟩
    rw [hn, Option.bind_some, hselected] at hs
    cases hs
  | some s =>
    obtain ⟨n, hn, hselected⟩ := Option.bind_eq_some_iff.mp hs
    simp only [Option.ite_none_right_eq_some, Option.some.injEq]
    constructor
    · rintro ⟨⟨hdriver, hedge⟩, rfl⟩
      exact ⟨rfl, n, s, hn, hselected, hdriver, hedge⟩
    · rintro ⟨rfl, n', s', hn', hselected', hdriver, hedge⟩
      rw [hn] at hn'
      cases hn'
      rw [hselected] at hselected'
      cases hselected'
      exact ⟨⟨hdriver, hedge⟩, rfl⟩

/-- The nodes found along the edges of a node are those it is linked to, each found once. -/
theorem Wired.exists_selectedFanout (h : g.Wired) (hid : id < g.size) :
  ∃ reached, g.selectedFanout id = .ok reached ∧ reached.Nodup ∧ ∀ q, q ∈ reached ↔ g.Linked id q
  := by
  obtain ⟨n, hn⟩ := exists_node_of_lt hid
  use n.edges.zipIdx.filterMap (g.linkOver id)
  refine ⟨?_, ?_, ?_⟩
  · rw [selectedFanout, hn, ok_bind, filterMapM_eq_ok (g := g.linkOver id)]
    rintro ⟨e, place⟩ he
    rw [List.mem_zipIdx_iff_getElem?] at he
    obtain ⟨m, hm⟩ := exists_node_of_lt (h.sinks id place e.sink ⟨n, e, hn, he, rfl⟩)
    simp only [hm, ok_bind, linkOver, entry_eq_ok_iff.mp hm, Option.bind_some]
    rfl
  · -- edges at different places are not selected by the same node
    have hplaces : n.edges.zipIdx.Pairwise fun x y => x.2 ≠ y.2 := by
      rw [← List.pairwise_map, List.zipIdx_map_snd]
      exact List.nodup_range'
    rw [List.Nodup, List.pairwise_filterMap]
    apply hplaces.imp
    rintro x y hne q hx q' hy rfl
    obtain ⟨-, m, s, hm, hs, -, hplace⟩ := linkOver_eq_some_iff.mp hx
    obtain ⟨-, m', s', hm', hs', -, hplace'⟩ := linkOver_eq_some_iff.mp hy
    rw [hm] at hm'
    cases hm'
    rw [hs] at hs'
    cases hs'
    apply hne
    rw [← hplace, ← hplace']
  · intro q
    rw [List.mem_filterMap]
    constructor
    · rintro ⟨x, -, hx⟩
      obtain ⟨-, m, s, hm, hs, hdriver, -⟩ := linkOver_eq_some_iff.mp hx
      exact ⟨m, s, hm, hs, hdriver⟩
    · rintro ⟨m, s, hm, hs, rfl⟩
      obtain ⟨n', e, hn', he, hsink⟩ := h.selected q m s hm hs
      rw [hn] at hn'
      cases hn'
      use (e, s.edge), List.mem_zipIdx_iff_getElem?.mpr he
      apply linkOver_eq_some_iff.mpr ⟨hsink, m, s, hm, hs, rfl, rfl⟩

end RoutingFabric.RoutingGraph
