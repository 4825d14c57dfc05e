import RoutingFabric.Proofs.RoutingGraph.Annotation

/-!
# Graphs that agree in part

Most operations on a graph change one field of some nodes. What they leave alone is said by seeing
both graphs through a function of nodes that forgets the field: the two views are equal. A graph is
determined by its view without logical nets and by the logical nets of its nodes.
-/

namespace RoutingFabric.RoutingGraph

/-- The graph with each node seen through a function. -/
def view (r : Node → Node) (g : RoutingGraph) : RoutingGraph := { g with nodes := g.nodes.map r }

/-- The node without its logical net. -/
def Node.silent (n : Node) : Node := { n with logical := none }

/-- The graph without logical nets. -/
def silent (g : RoutingGraph) : RoutingGraph := g.view Node.silent

/-- The logical net of a node. -/
def logicalAt (g : RoutingGraph) (id : NodeId) : Option LogicalId := (g.nodes[id]?).bind (·.logical)

variable {g g' g₀ : RoutingGraph} {id : NodeId} {r : Node → Node}

/-- An id below the size of a graph has a node. -/
theorem exists_node_of_lt (h : id < g.size) : ∃ n, g.node id = .ok n := ⟨_, entry_of_lt h⟩

/-- The id of a node is below the size of the graph. -/
theorem lt_of_node_eq {n : Node} (h : g.node id = .ok n) : id < g.size :=
  (Array.getElem?_eq_some_iff.mp (entry_eq_ok_iff.mp h)).1

/-- Graphs with equal views have the same nodes, as far as these are seen. -/
theorem exists_node_of_view_eq (h : g.view r = g₀.view r) {n : Node} (hn : g.node id = .ok n) :
  ∃ n₀, g₀.node id = .ok n₀ ∧ r n = r n₀
  := by
  obtain ⟨n₀, hn₀, heq⟩ :=
    exists_getElem?_of_map_eq (congrArg nodes h) (entry_eq_ok_iff.mp hn)
  exact ⟨n₀, entry_eq_ok_iff.mpr hn₀, heq⟩

/-- Graphs with equal views have as many nodes. -/
theorem size_eq_of_view_eq (h : g.view r = g₀.view r) : g.size = g₀.size := by
  simpa [view, size] using congrArg size h

/-- Changing what is not seen of a node leaves the view as it is. -/
theorem view_of_modify {f : Node → Node} (h : g.modify id f = .ok g') (hf : ∀ n, r (f n) = r n) :
  g'.view r = g.view r
  := by
  obtain ⟨-, rfl⟩ := modify_eq_ok_iff.mp h
  simp only [view, map_modify_of_seen fun n _ => hf n]

/-- The logical net of a node is found at its id. -/
theorem logicalAt_of_node {n : Node} (h : g.node id = .ok n) : g.logicalAt id = n.logical := by
  rw [logicalAt, entry_eq_ok_iff.mp h]
  rfl

/-- Giving a node a logical net leaves those of other nodes. -/
theorem logicalAt_of_modify {logical : Option LogicalId}
    (h : g.modify id ({ · with logical }) = .ok g') (q : NodeId) :
  g'.logicalAt q = if q = id then logical else g.logicalAt q
  := by
  obtain ⟨hid, rfl⟩ := modify_eq_ok_iff.mp h
  rw [logicalAt, Array.getElem?_modify]
  split
  · rename_i heq
    subst heq
    obtain ⟨n, hn⟩ := exists_node_of_lt hid
    simp [entry_eq_ok_iff.mp hn]
  · rename_i hne
    rw [if_neg (Ne.symm hne), logicalAt]

/-- Graphs that agree without logical nets, and on the logical net of each node, are equal. -/
theorem eq_of_silent_eq (h : g.silent = g'.silent) (hlogical : ∀ q, g.logicalAt q = g'.logicalAt q) :
  g = g'
  := by
  have hnodes : g.nodes = g'.nodes := by
    apply Array.ext_getElem?
    intro q
    cases hn : g.nodes[q]? with
    | none =>
      have hsize := size_eq_of_view_eq h
      rw [Array.getElem?_eq_none_iff] at hn
      symm
      rw [Array.getElem?_eq_none_iff]
      rw [size, size] at hsize
      omega
    | some n =>
      obtain ⟨n', hn', hsame⟩ := exists_node_of_view_eq h (entry_eq_ok_iff.mpr hn)
      have hq := hlogical q
      rw [logicalAt_of_node (entry_eq_ok_iff.mpr hn), logicalAt_of_node hn'] at hq
      rw [entry_eq_ok_iff.mp hn']
      congr 1
      cases n
      cases n'
      simp_all [Node.silent]
  cases g
  cases g'
  simp_all [silent, view]

end RoutingFabric.RoutingGraph
