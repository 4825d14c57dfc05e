import RoutingFabric.Proofs.RoutingGraph.Views

/-!
# Drivers are edges

The index of drivers holds the edges of a graph by the node that they reach. In a graph with an
index every edge leads to a node, and every driver of a node is an edge from the driving node.
-/

namespace RoutingFabric.RoutingGraph

/-- The edge at a place of the one node leads to the other. -/
def HasEdge (g : RoutingGraph) (p : NodeId) (place : Nat) (q : NodeId) : Prop :=
  ∃ n e, g.node p = .ok n ∧ n.edges[place]? = some e ∧ e.sink = q

/-- Edges lead to nodes, and drivers are edges. -/
structure Connected (g : RoutingGraph) : Prop where
  sinks : ∀ p place q, g.HasEdge p place q → q < g.size
  drivers : ∀ q n, g.node q = .ok n → ∀ d ∈ n.drivers, g.HasEdge d.node d.edge q

/-- The node without its drivers and their switch. -/
def Node.undriven (n : Node) : Node := { n with drivers := [], driverSwitch := none }

variable {g g' : RoutingGraph}

/-! ### The table of drivers -/

/-- The links of a graph are the edges of its nodes. -/
theorem mem_links_iff {q : NodeId} {d : Driver} :
  (q, d) ∈ g.links ↔ ∃ n e, g.node d.node = .ok n ∧ n.edges[d.edge]? = some e ∧ e.sink = q
    ∧ e.switch = d.switch
  := by
  obtain ⟨p, place, switch⟩ := d
  simp only [links, linksOf, List.mem_flatMap, List.mem_map, List.mem_zipIdx_iff_getElem?,
    Array.getElem?_toList, Prod.exists, Prod.mk.injEq, Driver.mk.injEq, node, entry_eq_ok_iff]
  constructor
  · rintro ⟨n, _, hn, e, _, he, rfl, rfl, rfl, rfl⟩
    exact ⟨n, e, hn, he, rfl, rfl⟩
  · rintro ⟨n, e, hn, he, rfl, rfl⟩
    exact ⟨n, p, hn, e, place, he, rfl, rfl, rfl, rfl⟩

/-- A node has the links in the table that lead to it. -/
theorem getElem?_driverTable {id : NodeId} (h : id < g.size) :
  g.driverTable[id]? = some ((g.links.filter (·.1 = id)).map (·.2))
  := by
  rw [driverTable]
  generalize g.links = links
  induction links with
  | nil => simp [h]
  | cons link links ih =>
    rw [List.foldr_cons, Array.getElem?_modify, ih]
    by_cases heq : link.1 = id
    · simp [heq]
    · simp [heq]

/-- A driver in the table is an edge. -/
theorem hasEdge_of_mem_driverTable {id : NodeId} {drivers : List Driver} {d : Driver}
    (h : g.driverTable[id]? = some drivers) (hd : d ∈ drivers) :
  g.HasEdge d.node d.edge id
  := by
  obtain ⟨hid, -⟩ := Array.getElem?_eq_some_iff.mp h
  rw [size_driverTable] at hid
  rw [getElem?_driverTable hid] at h
  cases h
  obtain ⟨⟨q, d'⟩, hmem, rfl⟩ := List.mem_map.mp hd
  obtain ⟨hlink, hq⟩ := List.mem_filter.mp hmem
  obtain ⟨n, e, hn, he, hsink, -⟩ := mem_links_iff.mp hlink
  exact ⟨n, e, hn, he, by simpa [hsink] using hq⟩

/-! ### Graphs with the same edges -/

/-- Edges are kept where they are seen. -/
theorem HasEdge.of_view_eq {r : Node → Node} {p q : NodeId} {place : Nat}
    (h : g.HasEdge p place q) (hsame : g.view r = g'.view r)
    (hr : ∀ n n', r n = r n' → n.edges = n'.edges) :
  g'.HasEdge p place q
  := by
  obtain ⟨n, e, hn, he, hsink⟩ := h
  obtain ⟨n', hn', heq⟩ := exists_node_of_view_eq hsame hn
  rw [hr n n' heq] at he
  use n', e

/-- A graph is connected if it has the edges and drivers of one that is. -/
theorem Connected.of_view_eq {r : Node → Node} (h : g.Connected) (hsame : g.view r = g'.view r)
    (hr : ∀ n n', r n = r n' → n.edges = n'.edges ∧ n.drivers = n'.drivers) :
  g'.Connected
  := by
  constructor
  · intro p place q hedge
    rw [← size_eq_of_view_eq hsame]
    apply h.sinks p place q
    apply hedge.of_view_eq hsame.symm
    intro n n' heq
    apply (hr n n' heq).1
  · intro q n hn d hd
    obtain ⟨n', hn', heq⟩ := exists_node_of_view_eq hsame.symm hn
    rw [(hr n n' heq).2] at hd
    apply (h.drivers q n' hn' d hd).of_view_eq hsame
    intro n n' heq
    apply (hr n n' heq).1

/-! ### Preparing a graph -/

/-- Assigning drivers leaves all else. -/
theorem undriven_of_assignDrivers {items : List (NodeId × List Driver)}
    (h : (Phase.each assignTo items).Gives g () g') :
  g'.view Node.undriven = g.view Node.undriven
  := by
  apply Phase.each_induction h (I := fun s => s.view Node.undriven = g.view Node.undriven) rfl
  intro i _ s s' hs hstep
  obtain ⟨_, -, -, hmodify⟩ := gives_assignTo hstep
  exact (view_of_modify (r := Node.undriven) hmodify fun _ => rfl).trans hs

/-- Assigning drivers gives each node its list, and leaves all else. -/
theorem drivers_of_assignDrivers {items : List (NodeId × List Driver)}
    {lists : NodeId → List Driver} (hlists : ∀ i ∈ items, i.2 = lists i.1)
    (h : (Phase.each assignTo items).Gives g () g') :
  g'.view Node.undriven = g.view Node.undriven
    ∧ ∀ i ∈ items, ∀ n, g'.node i.1 = .ok n → n.drivers = lists i.1
  := by
  constructor
  · apply undriven_of_assignDrivers h
  · apply Phase.each_establishes h
      (Q := fun i s => ∀ n, s.node i.1 = .ok n → n.drivers = lists i.1)
    intro i hi s s' hstep
    obtain ⟨_, -, -, hmodify⟩ := gives_assignTo hstep
    -- a node that is given drivers is given those of the list, whichever item does so
    have hkeep : ∀ q n, s'.node q = .ok n → q = i.1 ∧ n.drivers = lists q
        ∨ ∃ old, s.node q = .ok old ∧ n.drivers = old.drivers := by
      intro q n hn
      obtain ⟨old, hold, rfl⟩ := node_of_modify hmodify hn
      by_cases hq : q = i.1
      · left
        simp [hq, hlists i hi]
      · right
        use old, hold
        simp [hq]
    constructor
    · intro n hn
      obtain ⟨m, hm, -, hmodify⟩ := gives_assignTo hstep
      obtain ⟨old, hold, rfl⟩ := node_of_modify hmodify hn
      simp [hlists i hi]
    · intro j hj n hn
      rcases hkeep j.1 n hn with ⟨-, hdrivers⟩ | ⟨old, hold, hdrivers⟩
      · apply hdrivers
      · rw [hdrivers, hj old hold]

/-- Building the driver index gives each node its drivers from the table, and leaves all else. -/
theorem drivers_of_buildDriverIndex (h : buildDriverIndex.Gives g () g') :
  g'.view Node.undriven = g.view Node.undriven
    ∧ ∀ q n, g'.node q = .ok n → g.driverTable[q]? = some n.drivers
  := by
  obtain ⟨-, -, hassign⟩ := gives_buildDriverIndex h
  obtain ⟨lists, hlists⟩ : ∃ lists : NodeId → List Driver,
      ∀ i ∈ g.driverTable.toList.zipIdx.map fun entry => (entry.2, entry.1), i.2 = lists i.1 := by
    use fun id => (g.driverTable[id]?).getD []
    rintro ⟨id, drivers⟩ hi
    simp only [mem_map_zipIdx_iff.mp hi, Option.getD_some]
  obtain ⟨hsame, hdrivers⟩ := drivers_of_assignDrivers hlists hassign
  use hsame
  intro q n hn
  have hq : q < g.driverTable.size := by
    rw [size_driverTable, ← size_eq_of_view_eq hsame]
    apply lt_of_node_eq hn
  have hget := Array.getElem?_eq_getElem hq
  have hmem := mem_map_zipIdx_iff.mpr hget
  rw [hget, hdrivers _ hmem n hn, ← hlists _ hmem]

/-- The driver index is built only if edges lead to nodes. -/
theorem sinks_of_buildDriverIndex (h : buildDriverIndex.Gives g () g') (p : NodeId) (place : Nat)
    (q : NodeId) (hedge : g.HasEdge p place q) :
  q < g.size
  := by
  obtain ⟨-, hlinks, -⟩ := gives_buildDriverIndex h
  obtain ⟨n, e, hn, he, hsink⟩ := hedge
  have hlink : (q, ⟨p, place, e.switch⟩) ∈ g.links :=
    mem_links_iff.mpr ⟨n, e, hn, he, hsink, rfl⟩
  apply hlinks _ hlink

/-- Once the driver index is built, a graph is connected. -/
theorem connected_of_buildDriverIndex (h : buildDriverIndex.Gives g () g') : g'.Connected := by
  obtain ⟨hsame, hdrivers⟩ := drivers_of_buildDriverIndex h
  have hedges : ∀ n n' : Node, n.undriven = n'.undriven → n.edges = n'.edges := by
    intro n n' heq
    injection heq
  constructor
  case sinks =>
    intro p place q hedge
    rw [size_eq_of_view_eq hsame]
    apply sinks_of_buildDriverIndex h p place q (hedge.of_view_eq hsame hedges)
  case drivers =>
    intro q n hn d hd
    apply (hasEdge_of_mem_driverTable (hdrivers q n hn) hd).of_view_eq hsame.symm hedges

/-- Coming to know the switch of its drivers leaves a graph connected. -/
theorem connected_of_identifyDriverSwitches (hg : g.Connected)
    (h : identifyDriverSwitches.Gives g () g') :
  g'.Connected
  := by
  apply Phase.each_induction (gives_identifyDriverSwitches_iff.mp h) hg
  intro id _ s s' hs hstep
  obtain ⟨driverSwitch, hmodify⟩ := gives_identifyAt hstep
  apply hs.of_view_eq (r := fun n => { n with driverSwitch := none })
  · symm
    apply view_of_modify hmodify
    intro n
    rfl
  · intro n n' heq
    injection heq
    constructor <;> assumption

end RoutingFabric.RoutingGraph
