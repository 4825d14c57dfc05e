import RoutingFabric.Proofs.RoutingGraph.Drivers
import RoutingFabric.Proofs.RoutingGraph.Preparation

/-!
# The index of drivers is the inverse of the edges

The index of drivers is built exactly if every edge leads to a node and every node declares as many
edges as reach it. Then the drivers of a node are the edges that reach it, each listed once, in the
order of the nodes they come from and of the edges of these. The switches of drivers are found
exactly if no wire is of both directions and the edges that reach a node agree on their switch.
-/

namespace RoutingFabric.RoutingGraph

variable {g g' g'' : RoutingGraph} {id q : NodeId} {n : Node} {drivers : List Driver}

/-- The driver is an edge to the node, with the switch of that edge. -/
def Drives (g : RoutingGraph) (d : Driver) (q : NodeId) : Prop :=
  ∃ n e, g.node d.node = .ok n ∧ n.edges[d.edge]? = some e ∧ e.sink = q ∧ e.switch = d.switch

/-- The one driver comes from an earlier node than the other, or from the same node by an earlier
edge. -/
def Driver.Before (d d' : Driver) : Prop :=
  d.node < d'.node ∨ d.node = d'.node ∧ d.edge < d'.edge

/-- The list holds the edges that reach a node, each once, in order. -/
structure Inverts (g : RoutingGraph) (q : NodeId) (drivers : List Driver) : Prop where
  ordered : drivers.Pairwise Driver.Before
  mem_iff : ∀ d, d ∈ drivers ↔ g.Drives d q

/-- The number of edges that reach a node. -/
def inDegree (g : RoutingGraph) (q : NodeId) : Nat :=
  (g.nodes.toList.flatMap (·.edges)).countP (·.sink = q)

/-- The node is no wire of both directions. -/
def Node.OneWay (n : Node) : Prop := ¬ (n.kind.isWire ∧ n.direction = some .both)

instance (n : Node) : Decidable n.OneWay := inferInstanceAs (Decidable (¬ _))

/-- The node without the switch of its drivers. -/
def Node.unswitched (n : Node) : Node := { n with driverSwitch := none }

/-- The node knows the switch that its drivers have in common. -/
structure Node.Switched (n : Node) : Prop where
  oneWay : n.OneWay
  common : commonSwitch n.drivers = .ok n.driverSwitch

/-! ### What is kept -/

/-- Nodes of one kind and direction are of both directions alike. -/
theorem Node.oneWay_congr {n n' : Node} (hkind : n.kind = n'.kind)
    (hdirection : n.direction = n'.direction) :
  n.OneWay ↔ n'.OneWay
  := by
  rw [OneWay, OneWay, hkind, hdirection]

/-- Nodes that agree without their drivers are of both directions alike, and declare as many
drivers. -/
theorem Node.congr_of_undriven_eq {n n' : Node} (h : n.undriven = n'.undriven) :
  (n.OneWay ↔ n'.OneWay) ∧ n.fanIn = n'.fanIn
  := by
  injection h with hkind _ _ _ hdirection _ hfanIn
  exact ⟨oneWay_congr hkind hdirection, hfanIn⟩

/-- Nodes that agree without the switch of their drivers are of both directions alike, and have the
same drivers. -/
theorem Node.congr_of_unswitched_eq {n n' : Node} (h : n.unswitched = n'.unswitched) :
  (n.OneWay ↔ n'.OneWay) ∧ n.drivers = n'.drivers
  := by
  injection h with hkind _ _ _ hdirection _ _ _ hdrivers
  exact ⟨oneWay_congr hkind hdirection, hdrivers⟩

/-! ### The table of drivers -/

/-- The places of the entries of a list increase. -/
theorem pairwise_zipIdx {α : Type} (xs : List α) : xs.zipIdx.Pairwise fun x y => x.2 < y.2 := by
  apply List.pairwise_map.mp
  rw [List.zipIdx_map_snd]
  apply List.pairwise_lt_range' 1 Nat.one_pos

/-- The links of a graph are in the order of their drivers. -/
theorem pairwise_links (g : RoutingGraph) :
  g.links.Pairwise fun link link' => link.2.Before link'.2
  := by
  apply List.pairwise_flatMap.mpr
  constructor
  · rintro ⟨n, id⟩ -
    apply List.pairwise_map.mpr
    apply (pairwise_zipIdx n.edges).imp
    intro x y hlt
    right
    exact ⟨rfl, hlt⟩
  · apply (pairwise_zipIdx g.nodes.toList).imp
    rintro x y hlt link hlink link' hlink'
    obtain ⟨_, -, rfl⟩ := List.mem_map.mp hlink
    obtain ⟨_, -, rfl⟩ := List.mem_map.mp hlink'
    left
    exact hlt

/-- The links of a graph lead where its edges lead. -/
theorem map_fst_links (g : RoutingGraph) :
  g.links.map (·.1) = (g.nodes.toList.flatMap (·.edges)).map (·.sink)
  := by
  have hnode : ∀ entry : Node × NodeId, (linksOf entry.2 entry.1).map (·.1)
      = entry.1.edges.map (·.sink) := by
    rintro ⟨n, id⟩
    calc (linksOf id n).map (·.1)
      _ = (n.edges.zipIdx.map Prod.fst).map (·.sink) := by
          rw [linksOf, List.map_map, List.map_map]
          rfl
      _ = n.edges.map (·.sink) := by rw [List.zipIdx_map_fst]
  calc g.links.map (·.1)
    _ = g.nodes.toList.zipIdx.flatMap fun entry => (linksOf entry.2 entry.1).map (·.1) :=
        List.map_flatMap
    _ = (g.nodes.toList.zipIdx.map Prod.fst).flatMap fun n => n.edges.map (·.sink) := by
        simp only [hnode, List.flatMap_map]
    _ = (g.nodes.toList.flatMap (·.edges)).map (·.sink) := by
        rw [List.zipIdx_map_fst, List.map_flatMap]

/-- As many links lead to a node as edges reach it. -/
theorem countP_links (g : RoutingGraph) (q : NodeId) :
  g.links.countP (·.1 = q) = g.inDegree q
  := by
  calc g.links.countP (·.1 = q)
    _ = (g.links.map (·.1)).countP (· = q) := by
        rw [List.countP_map]
        rfl
    _ = g.inDegree q := by
        rw [map_fst_links, List.countP_map]
        rfl

/-- The table of drivers lists the edges that reach a node. -/
theorem inverts_driverTable (h : g.driverTable[q]? = some drivers) :
  g.Inverts q drivers ∧ drivers.length = g.inDegree q
  := by
  have hq : q < g.size := by
    rw [← size_driverTable]
    apply (Array.getElem?_eq_some_iff.mp h).1
  rw [getElem?_driverTable hq] at h
  cases h
  refine ⟨⟨?_, ?_⟩, ?_⟩
  · apply List.pairwise_map.mpr
    apply g.pairwise_links.filter
  · intro d
    rw [List.mem_map]
    constructor
    · rintro ⟨⟨q', d⟩, hmem, rfl⟩
      obtain ⟨hlink, hq'⟩ := List.mem_filter.mp hmem
      rw [← of_decide_eq_true hq']
      apply mem_links_iff.mp hlink
    · intro hdrives
      refine ⟨(q, d), ?_, rfl⟩
      apply List.mem_filter.mpr ⟨mem_links_iff.mpr hdrives, decide_eq_true rfl⟩
  · rw [List.length_map, ← List.countP_eq_length_filter, countP_links]

/-! ### Building the index -/

/-- A node is given as many drivers as it declares. -/
theorem exists_assignTo {i : NodeId × List Driver} (hn : g.node i.1 = .ok n)
    (hlength : i.2.length = n.fanIn) :
  ∃ g', (assignTo i).Gives g () g' ∧ g'.view Node.undriven = g.view Node.undriven
  := by
  have hmodify : g.modify i.1 ({ · with drivers := i.2 })
      = .ok { g with nodes := g.nodes.modify i.1 ({ · with drivers := i.2 }) } :=
    modify_eq_ok_iff.mpr ⟨lt_of_node_eq hn, rfl⟩
  refine ⟨_, ?_, view_of_modify (r := Node.undriven) hmodify fun _ => rfl⟩
  simp only [assignTo, Phase.gives_bind_iff, Phase.gives_state_iff, Phase.gives_lift_iff]
  refine ⟨g, g, ⟨rfl, rfl⟩, n, g, ⟨hn, rfl⟩, ?_⟩
  rw [if_pos hlength]
  simp only [Phase.gives_bind_iff, Phase.gives_lift_iff, Phase.gives_put_iff]
  exact ⟨_, g, ⟨hmodify, rfl⟩, rfl⟩

/-- The index is built where tables of drivers fit the memory, edges lead to nodes, and each node
declares as many edges as reach it. -/
theorem exists_buildDriverIndex (hfits : g.Every fun n => driverBytes * n.fanIn ≤ tableLimit)
    (hsinks : ∀ p place q, g.HasEdge p place q → q < g.size)
    (hdegrees : ∀ id n, g.node id = .ok n → n.fanIn = g.inDegree id) :
  ∃ g', buildDriverIndex.Gives g () g'
  := by
  have hmemory : ¬ g.nodes.any (fun n => tableLimit < driverBytes * n.fanIn) := by
    rw [Array.any_eq_true']
    rintro ⟨n, hn, hlarge⟩
    apply absurd (of_decide_eq_true hlarge) (Nat.not_lt.mpr (every_iff_forall_mem.mp hfits n hn))
  have hdangling : g.links.find? (fun link => g.size ≤ link.1) = none := by
    apply List.find?_eq_none.mpr
    rintro ⟨q, d⟩ hmem hle
    obtain ⟨n, e, hn, he, hsink, -⟩ := mem_links_iff.mp hmem
    have hlt := hsinks d.node d.edge q ⟨n, e, hn, he, hsink⟩
    exact absurd (of_decide_eq_true hle) (Nat.not_le.mpr hlt)
  have hassign : ∃ g', (Phase.each assignTo (g.driverTable.toList.zipIdx.map fun entry =>
      (entry.2, entry.1))).Gives g () g' := by
    apply Phase.exists_each (I := fun s => s.view Node.undriven = g.view Node.undriven) rfl
    rintro ⟨id, drivers⟩ hi s hs
    have htable := mem_map_zipIdx_iff.mp hi
    have hid : id < g.size := by
      rw [← size_driverTable]
      apply (Array.getElem?_eq_some_iff.mp htable).1
    obtain ⟨n₀, hn₀⟩ := exists_node_of_lt hid
    obtain ⟨n, hn, heq⟩ := exists_node_of_view_eq hs.symm hn₀
    obtain ⟨-, hfanIn⟩ := Node.congr_of_undriven_eq heq
    obtain ⟨s', hs', hsame⟩ := exists_assignTo (i := (id, drivers)) hn (by
      rw [(inverts_driverTable htable).2, ← hfanIn, hdegrees id n₀ hn₀])
    exact ⟨s', hs', hsame.trans hs⟩
  obtain ⟨g', hassign⟩ := hassign
  use g'
  simp only [buildDriverIndex, Phase.gives_bind_iff, Phase.gives_state_iff]
  refine ⟨g, g, ⟨rfl, rfl⟩, ?_⟩
  rw [if_neg hmemory, hdangling]
  simp only [Phase.gives_bind_iff, Phase.gives_report_iff]
  exact ⟨(), g', hassign, rfl⟩

/-- Once the index is built, the drivers of a node are the edges that reach it, as many as the node
declares. -/
theorem inverts_of_buildDriverIndex (h : buildDriverIndex.Gives g () g') (hn : g'.node q = .ok n) :
  g.Inverts q n.drivers ∧ n.fanIn = g.inDegree q
  := by
  obtain ⟨-, hdrivers⟩ := drivers_of_buildDriverIndex h
  obtain ⟨hinverts, hlength⟩ := inverts_driverTable (hdrivers q n hn)
  use hinverts
  rw [← (indexed_of_buildDriverIndex h q n hn).drivers, hlength]

/-- Where tables of drivers fit the memory, the index is built exactly if edges lead to nodes and
each node declares as many edges as reach it. -/
theorem exists_buildDriverIndex_iff
    (hfits : g.Every fun n => driverBytes * n.fanIn ≤ tableLimit) :
  (∃ g', buildDriverIndex.Gives g () g') ↔ (∀ p place q, g.HasEdge p place q → q < g.size)
    ∧ ∀ id n, g.node id = .ok n → n.fanIn = g.inDegree id
  := by
  constructor
  · rintro ⟨g', h⟩
    obtain ⟨hsame, -⟩ := drivers_of_buildDriverIndex h
    constructor
    · apply sinks_of_buildDriverIndex h
    · intro id n hn
      obtain ⟨n', hn', heq⟩ := exists_node_of_view_eq hsame.symm hn
      rw [(Node.congr_of_undriven_eq heq).2, (inverts_of_buildDriverIndex h hn').2]
  · rintro ⟨hsinks, hdegrees⟩
    apply exists_buildDriverIndex hfits hsinks hdegrees

/-! ### Common switches -/

/-- The switch that drivers have in common is that of each of them, and there is none without
drivers. -/
theorem commonSwitch_eq_ok_iff {switch : Option SwitchId} :
  commonSwitch drivers = .ok switch ↔ ∀ s, switch = some s ↔ ∃ d ∈ drivers, d.switch = s
  := by
  cases drivers with
  | nil =>
    cases switch with
    | none => simp [commonSwitch]
    | some s =>
      constructor
      · intro h
        cases h
      · intro h
        obtain ⟨d, hd, -⟩ := (h s).mp rfl
        cases hd
  | cons d rest =>
    rw [commonSwitch]
    split
    · rename_i other hother
      constructor
      · intro h
        cases h
      · intro h
        -- two drivers that differ cannot both have the common switch
        have hmem := List.mem_cons_of_mem d (List.mem_of_find?_eq_some hother)
        have hfirst := (h d.switch).mpr ⟨d, List.mem_cons_self, rfl⟩
        have hsecond := (h other.switch).mpr ⟨other, hmem, rfl⟩
        rw [hfirst] at hsecond
        injection hsecond with heq
        have hdiffers := List.find?_some hother
        exact absurd heq.symm (of_decide_eq_true hdiffers)
    · rename_i hnone
      have hall : ∀ d' ∈ d :: rest, d'.switch = d.switch := by
        intro d' hd'
        rcases List.mem_cons.mp hd' with rfl | hrest
        · rfl
        · simpa using List.find?_eq_none.mp hnone d' hrest
      constructor
      · intro h s
        cases h
        constructor
        · rintro ⟨⟩
          exact ⟨d, List.mem_cons_self, rfl⟩
        · rintro ⟨d', hd', rfl⟩
          rw [hall d' hd']
      · intro h
        rw [(h d.switch).mpr ⟨d, List.mem_cons_self, rfl⟩]

/-- Drivers have a switch in common exactly if no two of them differ. -/
theorem exists_commonSwitch_iff :
  (∃ switch, commonSwitch drivers = .ok switch)
    ↔ ∀ d ∈ drivers, ∀ d' ∈ drivers, d.switch = d'.switch
  := by
  constructor
  · rintro ⟨switch, h⟩ d hd d' hd'
    rw [commonSwitch_eq_ok_iff] at h
    have hfirst := (h d.switch).mpr ⟨d, hd, rfl⟩
    have hsecond := (h d'.switch).mpr ⟨d', hd', rfl⟩
    rw [hfirst] at hsecond
    injection hsecond
  · intro h
    cases drivers with
    | nil => exact ⟨none, rfl⟩
    | cons d rest =>
      use some d.switch
      apply commonSwitch_eq_ok_iff.mpr
      intro s
      constructor
      · rintro ⟨⟩
        exact ⟨d, List.mem_cons_self, rfl⟩
      · rintro ⟨d', hd', rfl⟩
        rw [h d' hd' d List.mem_cons_self]

/-! ### Finding the switches -/

/-- A node comes to know the switch that its drivers have in common, unless it is a wire of both
directions. -/
theorem gives_identifyAt_iff :
  (identifyAt id).Gives g () g' ↔ ∃ n driverSwitch, g.node id = .ok n ∧ n.OneWay
    ∧ commonSwitch n.drivers = .ok driverSwitch
    ∧ g.modify id ({ · with driverSwitch }) = .ok g'
  := by
  have hidentify : g.identifyDriverSwitch id = .ok g' ↔ ∃ n driverSwitch, g.node id = .ok n
      ∧ n.OneWay ∧ commonSwitch n.drivers = .ok driverSwitch
      ∧ g.modify id ({ · with driverSwitch }) = .ok g' := by
    rw [identifyDriverSwitch, bind_eq_ok_iff]
    apply exists_congr
    intro n
    by_cases hboth : n.kind.isWire ∧ n.direction = some .both
    · simp [hboth, Node.OneWay]
    · rw [if_neg hboth]
      cases hcommon : commonSwitch n.drivers with
      | error differing => simp
      | ok driverSwitch => simp [Node.OneWay, hboth]
  simp only [identifyAt, Phase.gives_bind_iff, Phase.gives_state_iff, Phase.gives_lift_iff,
    Phase.gives_put_iff]
  rw [← hidentify]
  constructor
  · rintro ⟨_, _, ⟨rfl, rfl⟩, _, _, ⟨h, rfl⟩, rfl⟩
    exact h
  · intro h
    exact ⟨g, g, ⟨rfl, rfl⟩, g', g, ⟨h, rfl⟩, rfl⟩

/-- Once all nodes know the switches of their drivers, each knows the one that they have in common,
and all else is as before. -/
theorem switched_of_identifyDriverSwitches (h : identifyDriverSwitches.Gives g () g') :
  g'.view Node.unswitched = g.view Node.unswitched ∧ g'.Every Node.Switched
  := by
  rw [gives_identifyDriverSwitches_iff] at h
  have hsame : g'.view Node.unswitched = g.view Node.unswitched := by
    apply Phase.each_induction h (I := fun s => s.view Node.unswitched = g.view Node.unswitched) rfl
    intro id _ s s' hs hstep
    obtain ⟨_, _, -, -, -, hmodify⟩ := gives_identifyAt_iff.mp hstep
    exact (view_of_modify (r := Node.unswitched) hmodify fun _ => rfl).trans hs
  have hall := Phase.each_establishes h
    (Q := fun id s => ∀ n, s.node id = .ok n → n.Switched) (by
      intro id _ s s' hstep
      obtain ⟨n, driverSwitch, hn, honeWay, hcommon, hmodify⟩ := gives_identifyAt_iff.mp hstep
      have hnode : ∀ q m, s'.node q = .ok m →
          q = id ∧ m.Switched ∨ q ≠ id ∧ s.node q = .ok m := by
        intro q m hm
        obtain ⟨old, hold, rfl⟩ := node_of_modify hmodify hm
        by_cases hq : q = id
        · rw [hq, hn] at hold
          cases hold
          rw [if_pos hq]
          exact .inl ⟨hq, honeWay, hcommon⟩
        · rw [if_neg hq]
          exact .inr ⟨hq, hold⟩
      constructor
      · intro m hm
        rcases hnode id m hm with ⟨-, hswitched⟩ | ⟨hne, -⟩
        · exact hswitched
        · exact absurd rfl hne
      · intro q hq m hm
        rcases hnode q m hm with ⟨-, hswitched⟩ | ⟨-, hold⟩
        · exact hswitched
        · exact hq m hold)
  use hsame
  intro q n hn
  apply hall q _ n hn
  rw [ids, List.mem_range, ← size_eq_of_view_eq hsame]
  apply lt_of_node_eq hn

/-- All nodes come to know the switches of their drivers exactly if none is a wire of both
directions and the drivers of each have a switch in common. -/
theorem exists_identifyDriverSwitches_iff :
  (∃ g', identifyDriverSwitches.Gives g () g')
    ↔ g.Every fun n => n.OneWay ∧ ∃ switch, commonSwitch n.drivers = .ok switch
  := by
  constructor
  · rintro ⟨g', h⟩ id n hn
    obtain ⟨hsame, hswitched⟩ := switched_of_identifyDriverSwitches h
    obtain ⟨n', hn', heq⟩ := exists_node_of_view_eq hsame.symm hn
    obtain ⟨honeWay, hcommon⟩ := hswitched id n' hn'
    obtain ⟨hways, hdrivers⟩ := Node.congr_of_unswitched_eq heq
    rw [hways, hdrivers]
    exact ⟨honeWay, _, hcommon⟩
  · intro hevery
    have heach : ∃ g', (Phase.each identifyAt g.ids).Gives g () g' := by
      apply Phase.exists_each (I := fun s => s.view Node.unswitched = g.view Node.unswitched) rfl
      intro id hid s hs
      obtain ⟨n₀, hn₀⟩ := exists_node_of_lt (List.mem_range.mp hid)
      obtain ⟨n, hn, heq⟩ := exists_node_of_view_eq hs.symm hn₀
      obtain ⟨honeWay, switch, hcommon⟩ := hevery id n₀ hn₀
      obtain ⟨hways, hdrivers⟩ := Node.congr_of_unswitched_eq heq
      rw [hways] at honeWay
      rw [hdrivers] at hcommon
      have hmodify : s.modify id ({ · with driverSwitch := switch })
          = .ok { s with nodes := s.nodes.modify id ({ · with driverSwitch := switch }) } :=
        modify_eq_ok_iff.mpr ⟨lt_of_node_eq hn, rfl⟩
      refine ⟨_, gives_identifyAt_iff.mpr ⟨n, switch, hn, honeWay, hcommon, hmodify⟩, ?_⟩
      exact (view_of_modify (r := Node.unswitched) hmodify fun _ => rfl).trans hs
    obtain ⟨g', heach⟩ := heach
    exact ⟨g', gives_identifyDriverSwitches_iff.mpr heach⟩

/-- Where the index holds the edges of a graph, the switches of drivers are found exactly if no wire
is of both directions and the edges that reach a node agree on their switch. -/
theorem exists_identifyDriverSwitches_of_inverts
    (hsinks : ∀ p place q, g.HasEdge p place q → q < g.size)
    (hsame : g'.view Node.undriven = g.view Node.undriven)
    (hinverts : ∀ q n, g'.node q = .ok n → g.Inverts q n.drivers) :
  (∃ g'', identifyDriverSwitches.Gives g' () g'') ↔ g.Every Node.OneWay
    ∧ ∀ q d d', g.Drives d q → g.Drives d' q → d.switch = d'.switch
  := by
  rw [exists_identifyDriverSwitches_iff]
  simp only [exists_commonSwitch_iff]
  constructor
  · intro hevery
    constructor
    · intro id n hn
      obtain ⟨n', hn', heq⟩ := exists_node_of_view_eq hsame.symm hn
      apply (Node.congr_of_undriven_eq heq).1.mpr (hevery id n' hn').1
    · intro q d d' hd hd'
      obtain ⟨n, e, hn, he, hsink, -⟩ := id hd
      have hq := hsinks d.node d.edge q ⟨n, e, hn, he, hsink⟩
      rw [← size_eq_of_view_eq hsame] at hq
      obtain ⟨n', hn'⟩ := exists_node_of_lt hq
      have hmem := (hinverts q n' hn').mem_iff
      apply (hevery q n' hn').2 d ((hmem d).mpr hd) d' ((hmem d').mpr hd')
  · rintro ⟨hways, hagree⟩ id n' hn'
    obtain ⟨n, hn, heq⟩ := exists_node_of_view_eq hsame hn'
    use (Node.congr_of_undriven_eq heq).1.mpr (hways id n hn)
    have hmem := (hinverts id n' hn').mem_iff
    intro d hd d' hd'
    apply hagree id d d' ((hmem d).mp hd) ((hmem d').mp hd')

/-- Once switches are found from an index of the edges, a node has a switch exactly if an edge that
reaches it has that switch. -/
theorem driverSwitch_of_inverts (hinverts : ∀ q n, g'.node q = .ok n → g.Inverts q n.drivers)
    (h : identifyDriverSwitches.Gives g' () g'') (hn : g''.node q = .ok n) (s : SwitchId) :
  n.driverSwitch = some s ↔ ∃ d, g.Drives d q ∧ d.switch = s
  := by
  obtain ⟨hsame, hswitched⟩ := switched_of_identifyDriverSwitches h
  obtain ⟨n', hn', heq⟩ := exists_node_of_view_eq hsame hn
  rw [commonSwitch_eq_ok_iff.mp (hswitched q n hn).common s,
    (Node.congr_of_unswitched_eq heq).2]
  simp only [(hinverts q n' hn').mem_iff]

/-! ### The index as an inverse -/

/-- Where tables of drivers fit the memory, the index is built exactly if edges lead to nodes and
each node declares as many edges as reach it, and holds the edges by the node that they reach. From
it the switches of drivers are found exactly if no wire is of both directions and the edges that
reach a node agree, and the switch of a node is that of the edges that reach it. Neither has a
fault. -/
theorem driverIndex_inverts_edges
    (hfits : g.Every fun n => driverBytes * n.fanIn ≤ tableLimit) :
  Faultless (buildDriverIndex.run g).outcome
    ∧ ((∃ g', buildDriverIndex.Gives g () g') ↔ (∀ p place q, g.HasEdge p place q → q < g.size)
      ∧ ∀ id n, g.node id = .ok n → n.fanIn = g.inDegree id)
    ∧ ∀ g', buildDriverIndex.Gives g () g' → g'.view Node.undriven = g.view Node.undriven
      ∧ (∀ q n, g'.node q = .ok n → g.Inverts q n.drivers)
      ∧ Faultless (identifyDriverSwitches.run g').outcome
      ∧ ((∃ g'', identifyDriverSwitches.Gives g' () g'') ↔ g.Every Node.OneWay
        ∧ ∀ q d d', g.Drives d q → g.Drives d' q → d.switch = d'.switch)
      ∧ ∀ g'', identifyDriverSwitches.Gives g' () g'' →
        g''.view Node.unswitched = g'.view Node.unswitched
        ∧ ∀ q n, g''.node q = .ok n → ∀ s, n.driverSwitch = some s
          ↔ ∃ d, g.Drives d q ∧ d.switch = s
  := by
  refine ⟨?_, exists_buildDriverIndex_iff hfits, ?_⟩
  · intro e he
    obtain ⟨-, n, hn, hlarge⟩ := faultsIn_buildDriverIndex.property e he
    exact absurd hlarge (Nat.not_lt.mpr (every_iff_forall_mem.mp hfits n hn))
  · intro g' h
    obtain ⟨hsame, -⟩ := drivers_of_buildDriverIndex h
    have hinverts : ∀ q n, g'.node q = .ok n → g.Inverts q n.drivers :=
      fun q n hn => (inverts_of_buildDriverIndex h hn).1
    refine ⟨hsame, hinverts, ?_, ?_, ?_⟩
    · intro e he
      apply faultsIn_identifyDriverSwitches.property (P := fun _ => False) e he
    · apply exists_identifyDriverSwitches_of_inverts (sinks_of_buildDriverIndex h) hsame hinverts
    · intro g'' h'
      obtain ⟨hsame', -⟩ := switched_of_identifyDriverSwitches h'
      use hsame'
      intro q n hn s
      apply driverSwitch_of_inverts hinverts h' hn

/-- A pin with two edges to one wire, that has an edge to itself. -/
def parallel : RoutingGraph where
  switches := #[⟨"mux", true⟩]
  nodes := #[
    { kind := .outPin, low := ⟨1, 1⟩, high := ⟨1, 1⟩, ptc := 0, edges := [⟨1, 0⟩, ⟨1, 0⟩] },
    { kind := .channelX, low := ⟨1, 1⟩, high := ⟨2, 1⟩, ptc := 0,
      direction := some .increasing, fanIn := 3, edges := [⟨1, 0⟩] }]

/-- Each of the two edges is a driver of the wire, and the wire is a driver of itself. -/
theorem driverIndex_inverts_edges_parallel :
  (parallel.Every fun n => driverBytes * n.fanIn ≤ tableLimit)
    ∧ ∃ g', buildDriverIndex.Gives parallel () g' ∧ (∃ g'', identifyDriverSwitches.Gives g' () g'')
      ∧ ∀ n, g'.node 1 = .ok n → ⟨0, 1, 0⟩ ∈ n.drivers ∧ ⟨1, 0, 0⟩ ∈ n.drivers
  := by
  have hfits : parallel.Every fun n => driverBytes * n.fanIn ≤ tableLimit :=
    every_iff_forall_mem.mpr (by decide)
  have hdegrees : ∀ entry ∈ parallel.nodes.toList.zipIdx,
      entry.1.fanIn = parallel.inDegree entry.2 := by decide
  have hedges : ∀ n ∈ parallel.nodes, ∀ e ∈ n.edges, e.sink < parallel.size ∧ e.switch = 0 := by
    decide
  have hnode : ∀ id n, parallel.node id = .ok n → parallel.nodes[id]? = some n :=
    fun _ _ => entry_eq_ok_iff.mp
  obtain ⟨-, hbuilt, hindex⟩ := driverIndex_inverts_edges hfits
  obtain ⟨g', h⟩ := hbuilt.mpr (by
    constructor
    · rintro p place q ⟨n, e, hn, he, rfl⟩
      apply (hedges n (Array.mem_of_getElem? (hnode p n hn)) e (List.mem_of_getElem? he)).1
    · intro id n hn
      apply hdegrees (n, id)
      apply List.mem_zipIdx_iff_getElem?.mpr
      rw [Array.getElem?_toList, hnode id n hn])
  obtain ⟨-, hinverts, -, hidentified, -⟩ := hindex g' h
  refine ⟨hfits, g', h, hidentified.mpr ⟨every_iff_forall_mem.mpr (by decide), ?_⟩, ?_⟩
  · have hswitch : ∀ d q, parallel.Drives d q → d.switch = 0 := by
      rintro d q ⟨n, e, hn, he, -, hswitch⟩
      rw [← hswitch]
      apply (hedges n (Array.mem_of_getElem? (hnode _ n hn)) e (List.mem_of_getElem? he)).2
    intro q d d' hd hd'
    rw [hswitch d q hd, hswitch d' q hd']
  · intro n hn
    have hmem := (hinverts 1 n hn).mem_iff
    constructor
    · apply (hmem _).mpr ⟨_, ⟨1, 0⟩, rfl, rfl, rfl, rfl⟩
    · apply (hmem _).mpr ⟨_, ⟨1, 0⟩, rfl, rfl, rfl, rfl⟩

end RoutingFabric.RoutingGraph
