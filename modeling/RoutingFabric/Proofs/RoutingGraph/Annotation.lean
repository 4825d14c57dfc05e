import RoutingFabric.Proofs.Phase
import RoutingFabric.Proofs.Tables
import RoutingFabric.RoutingGraph.Selected
import RoutingFabric.RoutingGraph.Tracing

/-!
# Annotated routing graphs

In a prepared graph every node has as many drivers as it declares, and their table fits the
memory. Tracing nets lets nodes select drivers that they have, and forwarding logical nets
leaves drivers alone. So in an annotated graph the place of every selected driver is an input of
the multiplexer in front of the node.
-/

namespace RoutingFabric.RoutingGraph

/-- The node has the drivers that it declares, and a table of them fits the memory. -/
structure Node.Indexed (n : Node) : Prop where
  fits : driverBytes * n.fanIn ≤ tableLimit
  drivers : n.drivers.length = n.fanIn

/-- The node is indexed, and the driver that it selects is one of its drivers. -/
structure Node.Sound (n : Node) : Prop where
  indexed : n.Indexed
  routed : ∀ s, n.selected = some s → s.path < n.drivers.length

/-- Each node of the graph has a property. -/
def Every (P : Node → Prop) (g : RoutingGraph) : Prop := ∀ id n, g.node id = .ok n → P n

/-- A property of each node is one of all entries of the table of nodes. -/
theorem every_iff_forall_mem {P : Node → Prop} {g : RoutingGraph} :
  g.Every P ↔ ∀ n ∈ g.nodes, P n
  := by
  constructor
  · intro h n hn
    obtain ⟨id, hid⟩ := Array.mem_iff_getElem?.mp hn
    apply h id n (entry_eq_ok_iff.mpr hid)
  · intro h id n hn
    apply h n (Array.mem_of_getElem? (entry_eq_ok_iff.mp hn))

/-! ### Changing a node -/

/-- The graph with one node changed, spelled out. -/
theorem modify_eq_ok_iff {g g' : RoutingGraph} {id : NodeId} {f : Node → Node} :
  g.modify id f = .ok g' ↔ id < g.size ∧ g' = { g with nodes := g.nodes.modify id f }
  := by
  simp only [modify, bind_eq_ok_iff, alter_eq_ok_iff, pure_eq_ok_iff]
  constructor
  · rintro ⟨nodes, ⟨hid, rfl⟩, rfl⟩
    exact ⟨hid, rfl⟩
  · rintro ⟨hid, rfl⟩
    exact ⟨_, ⟨hid, rfl⟩, rfl⟩

/-- A node of the changed graph is an old node, or the changed one. -/
theorem node_of_modify {g g' : RoutingGraph} {id : NodeId} {f : Node → Node}
    (h : g.modify id f = .ok g') {q : NodeId} {n : Node} (hn : g'.node q = .ok n) :
  ∃ old, g.node q = .ok old ∧ n = if q = id then f old else old
  := by
  obtain ⟨-, rfl⟩ := modify_eq_ok_iff.mp h
  simp only [node, entry_eq_ok_iff, Array.getElem?_modify] at hn ⊢
  by_cases hq : q = id
  · rw [hq, if_pos rfl] at hn
    obtain ⟨old, hold, rfl⟩ := Option.map_eq_some_iff.mp hn
    use old
    simp [hq, hold]
  · rw [if_neg (Ne.symm hq)] at hn
    use n
    simp [hq, hn]

/-- A property that a change keeps is kept by changing one node. -/
theorem Every.modify {P : Node → Prop} {g g' : RoutingGraph} (hg : g.Every P) {id : NodeId}
    {f : Node → Node} (h : g.modify id f = .ok g')
    (hf : ∀ n, g.node id = .ok n → P n → P (f n)) :
  g'.Every P
  := by
  intro q n hn
  obtain ⟨old, hold, rfl⟩ := node_of_modify h hn
  split
  · rename_i hq
    rw [hq] at hold
    apply hf old hold (hg id old hold)
  · apply hg q old hold

/-! ### Preparing a graph -/

/-- The table of drivers has an entry for each node. -/
theorem size_driverTable (g : RoutingGraph) : g.driverTable.size = g.size := by
  rw [driverTable]
  generalize g.links = links
  induction links with
  | nil => apply Array.size_replicate
  | cons link links ih => rw [List.foldr_cons, Array.size_modify, ih]

/-- Changing one node leaves the number of nodes. -/
theorem size_of_modify {g g' : RoutingGraph} {id : NodeId} {f : Node → Node}
    (h : g.modify id f = .ok g') :
  g'.size = g.size
  := by
  obtain ⟨-, rfl⟩ := modify_eq_ok_iff.mp h
  apply Array.size_modify

/-- The phase that gives one node its drivers. -/
def assignTo (i : NodeId × List Driver) : Phase RoutingGraph Unit := do
  let g ← Phase.state
  let n ← Phase.lift (g.node i.1)
  if i.2.length = n.fanIn then
    Phase.put (← Phase.lift (g.modify i.1 ({ · with drivers := i.2 })))
  else Phase.lift (fail (.fanInMismatch (g.describe i.1) n.fanIn i.2.length))

/-- Nodes are given their drivers one after another. -/
theorem assignDrivers_eq (is : List (NodeId × List Driver)) :
  assignDrivers is = Phase.each assignTo is
  := rfl

/-- A node is given as many drivers as it declares. -/
theorem gives_assignTo {g g' : RoutingGraph} {i : NodeId × List Driver}
    (h : (assignTo i).Gives g () g') :
  ∃ n, g.node i.1 = .ok n ∧ i.2.length = n.fanIn
    ∧ g.modify i.1 ({ · with drivers := i.2 }) = .ok g'
  := by
  simp only [assignTo, Phase.gives_bind_iff, Phase.gives_state_iff, Phase.gives_lift_iff] at h
  obtain ⟨_, _, ⟨rfl, rfl⟩, n, _, ⟨hn, rfl⟩, h⟩ := h
  split at h
  · rename_i hlength
    simp only [Phase.gives_bind_iff, Phase.gives_lift_iff, Phase.gives_put_iff] at h
    obtain ⟨_, _, ⟨hmodify, rfl⟩, rfl⟩ := h
    use n
  · simp at h

/-- The phase in which one node comes to know the switch of its drivers. -/
def identifyAt (id : NodeId) : Phase RoutingGraph Unit := do
  let g ← Phase.state
  Phase.put (← Phase.lift (g.identifyDriverSwitch id))

/-- Nodes come to know the switches of their drivers one after another. -/
theorem gives_identifyDriverSwitches_iff {g g' : RoutingGraph} :
  identifyDriverSwitches.Gives g () g' ↔ (Phase.each identifyAt g.ids).Gives g () g'
  := by
  rw [identifyDriverSwitches, Phase.gives_bind_iff]
  constructor
  · rintro ⟨_, _, hstate, h⟩
    obtain ⟨rfl, rfl⟩ := Phase.gives_state_iff.mp hstate
    apply h
  · intro h
    exact ⟨g, g, Phase.gives_state_iff.mpr ⟨rfl, rfl⟩, h⟩

/-- A node comes to know a switch. -/
theorem gives_identifyAt {g g' : RoutingGraph} {id : NodeId} (h : (identifyAt id).Gives g () g') :
  ∃ driverSwitch, g.modify id ({ · with driverSwitch }) = .ok g'
  := by
  simp only [identifyAt, Phase.gives_bind_iff, Phase.gives_state_iff, Phase.gives_lift_iff,
    Phase.gives_put_iff] at h
  obtain ⟨_, _, ⟨rfl, rfl⟩, _, _, ⟨h, rfl⟩, rfl⟩ := h
  obtain ⟨n, -, h⟩ := bind_eq_ok_iff.mp h
  split at h
  · cases fail_ne_ok h
  · split at h
    · exact ⟨_, h⟩
    · cases fail_ne_ok h

/-- Nodes are given the drivers in the table, where these fit the memory and all edges lead to
nodes. -/
theorem gives_buildDriverIndex {g g' : RoutingGraph} (h : buildDriverIndex.Gives g () g') :
  (g.Every fun n => driverBytes * n.fanIn ≤ tableLimit)
    ∧ (∀ link ∈ g.links, link.1 < g.size)
    ∧ (Phase.each assignTo (g.driverTable.toList.zipIdx.map fun (drivers, id) =>
      (id, drivers))).Gives g () g'
  := by
  simp only [buildDriverIndex, Phase.gives_bind_iff, Phase.gives_state_iff] at h
  obtain ⟨_, _, ⟨rfl, rfl⟩, h⟩ := h
  split at h
  · simp at h
  · rename_i hfits
    split at h
    · simp at h
    · rename_i hdangling
      simp only [Phase.gives_bind_iff, Phase.gives_report_iff] at h
      obtain ⟨_, _, hassign, rfl⟩ := h
      refine ⟨?_, ?_, hassign⟩
      · intro id n hn
        by_contra hlarge
        apply hfits
        rw [Array.any_eq_true]
        obtain ⟨hlt, heq⟩ := Array.getElem?_eq_some_iff.mp (entry_eq_ok_iff.mp hn)
        use id, hlt
        rw [heq]
        simpa using hlarge
      · intro link hlink
        simpa using List.find?_eq_none.mp hdangling link hlink

/-- A node that is given drivers has as many as it declares, and others keep theirs. -/
theorem drivers_of_assignTo {g g' : RoutingGraph} {i : NodeId × List Driver}
    (h : (assignTo i).Gives g () g') (q : NodeId) (n : Node) (hn : g'.node q = .ok n) :
  ∃ old, g.node q = .ok old ∧ n.fanIn = old.fanIn
    ∧ if q = i.1 then n.drivers.length = n.fanIn else n.drivers = old.drivers
  := by
  obtain ⟨m, hm, hlength, hmodify⟩ := gives_assignTo h
  obtain ⟨old, hold, rfl⟩ := node_of_modify hmodify hn
  use old, hold
  by_cases hq : q = i.1
  · rw [hq, hm] at hold
    cases hold
    simp [hq, hlength]
  · simp [hq]

/-- After drivers are assigned to all nodes, each has as many as it declares. -/
theorem indexed_of_assignDrivers {g g' : RoutingGraph} {table : Array (List Driver)}
    (hsize : table.size = g.size)
    (hfits : g.Every fun n => driverBytes * n.fanIn ≤ tableLimit)
    (h : (assignDrivers (table.toList.zipIdx.map fun (drivers, id) => (id, drivers))).Gives
      g () g') :
  g'.Every Node.Indexed
  := by
  rw [assignDrivers_eq] at h
  have hinv : g'.size = g.size ∧ g'.Every fun n => driverBytes * n.fanIn ≤ tableLimit := by
    apply Phase.each_induction h (I := fun s => s.size = g.size
      ∧ s.Every fun n => driverBytes * n.fanIn ≤ tableLimit) ⟨rfl, hfits⟩
    rintro i - s s' ⟨hs, hevery⟩ hstep
    obtain ⟨n, -, -, hmodify⟩ := gives_assignTo hstep
    constructor
    · rw [size_of_modify hmodify, hs]
    · apply hevery.modify hmodify
      intro n _ hn
      apply hn
  have hdrivers := Phase.each_establishes h
    (Q := fun i s => ∀ n, s.node i.1 = .ok n → n.drivers.length = n.fanIn) (by
      rintro i - s s' hstep
      constructor
      · intro n hn
        obtain ⟨old, -, -, hlength⟩ := drivers_of_assignTo hstep i.1 n hn
        rw [if_pos rfl] at hlength
        apply hlength
      · intro j hj n hn
        obtain ⟨old, hold, hfan, hlength⟩ := drivers_of_assignTo hstep j.1 n hn
        split at hlength
        · apply hlength
        · rw [hlength, hfan, hj old hold])
  intro id n hn
  constructor
  · apply hinv.2 id n hn
  · have hlt : id < table.size := by
      obtain ⟨hlt, -⟩ := Array.getElem?_eq_some_iff.mp (entry_eq_ok_iff.mp hn)
      rw [hsize, ← hinv.1]
      apply hlt
    apply hdrivers (id, table[id]) _ n hn
    apply mem_map_zipIdx_iff.mpr (Array.getElem?_eq_getElem hlt)

/-- After the driver index is built, every node has the drivers that it declares. -/
theorem indexed_of_buildDriverIndex {g g' : RoutingGraph}
    (h : buildDriverIndex.Gives g () g') :
  g'.Every Node.Indexed
  := by
  obtain ⟨hfits, -, hassign⟩ := gives_buildDriverIndex h
  apply indexed_of_assignDrivers (size_driverTable g) hfits hassign

/-- Coming to know the switch of its drivers leaves a node indexed. -/
theorem indexed_of_identifyDriverSwitches {g g' : RoutingGraph} (hg : g.Every Node.Indexed)
    (h : identifyDriverSwitches.Gives g () g') :
  g'.Every Node.Indexed
  := by
  apply Phase.each_induction (gives_identifyDriverSwitches_iff.mp h) hg
  intro id _ s s' hs hstep
  obtain ⟨driverSwitch, hmodify⟩ := gives_identifyAt hstep
  apply hs.modify hmodify
  rintro n - ⟨hfits, hdrivers⟩
  exact ⟨hfits, hdrivers⟩

/-! ### Tracing nets -/

section

variable {t : NetTable} {net : NetId}

/-- Claiming a node leaves nodes sound. -/
theorem sound_of_claim {g g' : RoutingGraph} {id : NodeId} {count : Nat}
    (hg : g.Every Node.Sound) (h : claim t net g id = .ok (count, g')) :
  g'.Every Node.Sound
  := by
  rw [claim] at h
  obtain ⟨n, -, h⟩ := bind_eq_ok_iff.mp h
  split at h
  · split at h
    · cases pure_eq_ok_iff.mp h
      apply hg
    · cases fail_ne_ok h
  · obtain ⟨logical, -, h⟩ := bind_eq_ok_iff.mp h
    obtain ⟨g'', hmodify, h⟩ := bind_eq_ok_iff.mp h
    cases pure_eq_ok_iff.mp h
    apply hg.modify hmodify
    rintro n - ⟨⟨hfits, hdrivers⟩, hrouted⟩
    exact ⟨⟨hfits, hdrivers⟩, hrouted⟩

/-- Selecting a driver leaves nodes sound: the driver is one that the node has. -/
theorem sound_of_selectDriver {g g' : RoutingGraph} {id driver : NodeId}
    (hg : g.Every Node.Sound) (h : selectDriver t net g id driver = .ok g') :
  g'.Every Node.Sound
  := by
  rw [selectDriver] at h
  obtain ⟨n, hn, h⟩ := bind_eq_ok_iff.mp h
  split at h
  · cases fail_ne_ok h
  · rename_i d path hfind
    have hpath : path < n.drivers.length := by
      have hmem := List.mem_of_find?_eq_some hfind
      rw [List.mem_zipIdx_iff_getElem?] at hmem
      obtain ⟨hlt, -⟩ := List.getElem?_eq_some_iff.mp hmem
      apply hlt
    dsimp only at h
    split at h
    · split at h
      · cases pure_eq_ok_iff.mp h
        apply hg
      · cases fail_ne_ok h
    · apply hg.modify h
      rintro m hm ⟨⟨hfits, hdrivers⟩, -⟩
      rw [hn] at hm
      cases hm
      use ⟨hfits, hdrivers⟩
      rintro s ⟨⟩
      apply hpath

/-- Entering a node leaves nodes sound. -/
theorem sound_of_enter {g g' : RoutingGraph} {at_ : TraceState} {id : NodeId} {count : Nat}
    (hg : g.Every Node.Sound) (h : enter t net g at_ id = .ok (count, g')) :
  g'.Every Node.Sound
  := by
  cases at_ with
  | start => apply sound_of_claim hg h
  | «from» driver =>
    obtain ⟨⟨count', g''⟩, hclaim, h⟩ := bind_eq_ok_iff.mp h
    obtain ⟨selected, hselect, h⟩ := bind_eq_ok_iff.mp h
    cases pure_eq_ok_iff.mp h
    apply sound_of_selectDriver (sound_of_claim hg hclaim) hselect
  | branch =>
    obtain ⟨n, -, h⟩ := bind_eq_ok_iff.mp h
    split at h
    · cases pure_eq_ok_iff.mp h
      apply hg
    · cases fail_ne_ok h

/-- Walking a trace leaves nodes sound. -/
theorem sound_of_walkTrace {g g' : RoutingGraph} {at_ : TraceState} {ids : List NodeId}
    {count : Nat} (hg : g.Every Node.Sound) (h : walkTrace t net g at_ ids = .ok (count, g')) :
  g'.Every Node.Sound
  := by
  induction ids generalizing g at_ count with
  | nil =>
    cases pure_eq_ok_iff.mp h
    apply hg
  | cons id ids ih =>
    rw [walkTrace] at h
    split at h
    · obtain ⟨⟨here, g''⟩, henter, h⟩ := bind_eq_ok_iff.mp h
      obtain ⟨n, -, h⟩ := bind_eq_ok_iff.mp h
      obtain ⟨⟨beyond, selected⟩, hrest, h⟩ := bind_eq_ok_iff.mp h
      cases pure_eq_ok_iff.mp h
      apply ih (sound_of_enter hg henter) hrest
    · cases fail_ne_ok h

/-- Tracing a net leaves nodes sound. -/
theorem sound_of_traceNet {skip : Bool} {n : Net} {stats stats' : RoutingStats}
    {g g' : RoutingGraph} (hg : g.Every Node.Sound)
    (h : (traceNet t net skip n stats).Gives g stats' g') :
  g'.Every Node.Sound
  := by
  rw [traceNet] at h
  split at h
  · obtain ⟨_, _, hreport, h⟩ := Phase.gives_bind_iff.mp h
    obtain rfl := Phase.gives_report_iff.mp hreport
    obtain ⟨-, rfl⟩ := Phase.gives_pure_iff.mp h
    apply hg
  · split at h
    · simp at h
    · simp only [Phase.gives_bind_iff, Phase.gives_state_iff, Phase.gives_lift_iff,
        Phase.gives_put_iff, Phase.gives_pure_iff] at h
      obtain ⟨_, _, ⟨rfl, rfl⟩, ⟨count, g''⟩, _, ⟨hwalk, rfl⟩, _, _, rfl, -, rfl⟩ := h
      apply sound_of_walkTrace hg hwalk

/-- Tracing nets leaves nodes sound. -/
theorem sound_of_traceNets {skip : Bool} {ns : List Net} {stats stats' : RoutingStats}
    {g g' : RoutingGraph} (hg : g.Every Node.Sound)
    (h : (traceNets t skip net stats ns).Gives g stats' g') :
  g'.Every Node.Sound
  := by
  induction ns generalizing net stats g with
  | nil =>
    obtain ⟨-, rfl⟩ := Phase.gives_pure_iff.mp h
    apply hg
  | cons n ns ih =>
    obtain ⟨stats'', g'', hn, h⟩ := Phase.gives_bind_iff.mp h
    apply ih (sound_of_traceNet hg hn) h

/-- After all nets are traced, nodes are sound if they were indexed before. -/
theorem sound_of_traceAll {skip : Bool} {stats : RoutingStats} {g g' : RoutingGraph}
    (hg : g.Every Node.Indexed) (h : (traceAll t skip).Gives g stats g') :
  g'.Every Node.Sound
  := by
  simp only [traceAll, Phase.gives_bind_iff, Phase.gives_state_iff, Phase.gives_put_iff,
    Phase.gives_report_iff, Phase.gives_pure_iff] at h
  obtain ⟨_, _, ⟨rfl, rfl⟩, _, _, rfl, _, _, htrace, _, _, rfl, -, rfl⟩ := h
  apply sound_of_traceNets _ htrace
  intro id n hn
  simp only [unannotated, node, entry_eq_ok_iff, Array.getElem?_map] at hn
  obtain ⟨old, hold, rfl⟩ := Option.map_eq_some_iff.mp hn
  obtain ⟨hfits, hdrivers⟩ := hg id old (entry_eq_ok_iff.mpr hold)
  use ⟨hfits, hdrivers⟩
  rintro s ⟨⟩

end

/-! ### Forwarding logical nets -/

/-- Giving nodes a logical net leaves nodes sound. -/
theorem sound_of_giveLogical {g g' : RoutingGraph} {logical : Option LogicalId}
    {ids : List NodeId} {count : Nat} (hg : g.Every Node.Sound)
    (h : g.giveLogical logical ids = .ok (count, g')) :
  g'.Every Node.Sound
  := by
  induction ids generalizing g count with
  | nil =>
    cases pure_eq_ok_iff.mp h
    apply hg
  | cons id ids ih =>
    obtain ⟨n, -, h⟩ := bind_eq_ok_iff.mp h
    obtain ⟨g'', hmodify, h⟩ := bind_eq_ok_iff.mp h
    obtain ⟨⟨beyond, selected⟩, hrest, h⟩ := bind_eq_ok_iff.mp h
    cases pure_eq_ok_iff.mp h
    apply ih _ hrest
    apply hg.modify hmodify
    rintro n - ⟨⟨hfits, hdrivers⟩, hrouted⟩
    exact ⟨⟨hfits, hdrivers⟩, hrouted⟩

/-- Forwarding a logical net leaves nodes sound. -/
theorem sound_of_forwardFrom {g g' : RoutingGraph} {logical : Option LogicalId} {more : Nat}
    {ids : List NodeId} {count : Nat} (hg : g.Every Node.Sound)
    (h : forwardFrom logical more ids g = .ok (count, g')) :
  g'.Every Node.Sound
  := by
  induction more generalizing g ids count with
  | zero =>
    cases ids with
    | nil =>
      cases pure_eq_ok_iff.mp h
      apply hg
    | cons id ids => cases fault_ne_ok h
  | succ more ih =>
    cases ids with
    | nil =>
      cases pure_eq_ok_iff.mp h
      apply hg
    | cons id ids =>
      obtain ⟨reached, -, h⟩ := bind_eq_ok_iff.mp h
      obtain ⟨⟨here, g''⟩, hgive, h⟩ := bind_eq_ok_iff.mp h
      obtain ⟨⟨beyond, selected⟩, hrest, h⟩ := bind_eq_ok_iff.mp h
      cases pure_eq_ok_iff.mp h
      apply ih (sound_of_giveLogical hg hgive) hrest

/-- Forwarding the logical net of a node leaves nodes sound. -/
theorem sound_of_forwardLogical {g g' : RoutingGraph} {id : NodeId} {count : Nat}
    (hg : g.Every Node.Sound) (h : g.forwardLogical id = .ok (count, g')) :
  g'.Every Node.Sound
  := by
  obtain ⟨n, -, h⟩ := bind_eq_ok_iff.mp h
  apply sound_of_forwardFrom hg h

end RoutingFabric.RoutingGraph
