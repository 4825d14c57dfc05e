import Mathlib.Logic.Relation
import RoutingFabric.Proofs.RoutingGraph.Trace
import RoutingFabric.Proofs.RoutingGraph.Views

/-!
# What traces leave on a graph

The annotation of a node is determined by the nets that hold the node and by the nodes that lead
to it: the net of the node is the one that holds it, and the node selects its first driver from
the node that leads to it. Claiming a node for a net and selecting a driver keep to this, and they
succeed exactly when no other net holds the node, or no other node leads to it.
-/

namespace RoutingFabric.RoutingGraph

/-- The selection is the first driver of the node from the driving node. -/
def Node.Selects (n : Node) (s : Selection) : Prop :=
  n.drivers.findIdx? (·.node = s.driver) = some s.path
    ∧ (n.drivers[s.path]?).map (·.edge) = some s.edge

/-- The number of nodes with a net. -/
def claimed (g : RoutingGraph) : Nat := g.nodes.countP (·.net.isSome)

/-- The annotation of the node is that of a node held by some nets and led to by some nodes. -/
structure Node.Marked (t : NetTable) (holds : NetId → Prop) (leads : NodeId → Prop) (n : Node) :
    Prop where
  net : ∀ net, n.net = some net ↔ holds net
  logical : t.logicalOf? n.net = .ok n.logical
  selected : ∀ s, n.selected = some s ↔ leads s.driver ∧ n.Selects s

/-- The graph is another one annotated for nets that hold nodes and nodes that lead to nodes. -/
structure Marked (t : NetTable) (g₀ : RoutingGraph) (holds : NetId → NodeId → Prop)
    (leads : NodeId → NodeId → Prop) (g : RoutingGraph) : Prop where
  same : g.unannotated = g₀.unannotated
  nodes : ∀ id n, g.node id = .ok n → n.Marked t (holds · id) (leads · id)

variable {t : NetTable} {net : NetId} {g₀ g g' : RoutingGraph} {id : NodeId} {count : Nat}

/-! ### Graphs that differ in annotations -/

/-- The kind of a node is no annotation. -/
@[simp] theorem Node.kind_unannotated (n : Node) : n.unannotated.kind = n.kind := rfl

/-- The drivers of a node are no annotation. -/
@[simp] theorem Node.drivers_unannotated (n : Node) : n.unannotated.drivers = n.drivers := rfl

/-- Changing a node changes the number of nodes with a net by that node. -/
theorem claimed_of_modify {n : Node} {f : Node → Node} (hn : g.node id = .ok n)
    (h : g.modify id f = .ok g') :
  g'.claimed + n.net.isSome.toNat = g.claimed + (f n).net.isSome.toNat
  := by
  obtain ⟨-, rfl⟩ := modify_eq_ok_iff.mp h
  apply countP_modify (·.net.isSome) f (entry_eq_ok_iff.mp hn)

/-- What holds nodes and leads to them matters only as far as it differs. -/
theorem Marked.congr {holds holds' : NetId → NodeId → Prop} {leads leads' : NodeId → NodeId → Prop}
    (h : Marked t g₀ holds leads g) (hholds : ∀ k q, holds' k q ↔ holds k q)
    (hleads : ∀ p q, leads' p q ↔ leads p q) :
  Marked t g₀ holds' leads' g
  := by
  obtain rfl : holds' = holds := by
    funext k q
    apply propext (hholds k q)
  obtain rfl : leads' = leads := by
    funext p q
    apply propext (hleads p q)
  apply h

/-- Changing the annotation of one node changes what holds that node and leads to it. -/
theorem Marked.modify {holds holds' : NetId → NodeId → Prop} {leads leads' : NodeId → NodeId → Prop}
    (h : Marked t g₀ holds leads g) {f : Node → Node} (hmodify : g.modify id f = .ok g')
    (hf : ∀ n, (f n).unannotated = n.unannotated)
    (hothers : ∀ q ≠ id, (∀ k, holds' k q ↔ holds k q) ∧ ∀ p, leads' p q ↔ leads p q)
    (hid : ∀ n, g.node id = .ok n → (f n).Marked t (holds' · id) (leads' · id)) :
  Marked t g₀ holds' leads' g'
  := by
  constructor
  · exact (view_of_modify (r := Node.unannotated) hmodify hf).trans h.same
  · intro q m hm
    obtain ⟨old, hold, rfl⟩ := node_of_modify hmodify hm
    split
    · rename_i hq
      subst hq
      apply hid old hold
    · rename_i hq
      obtain ⟨hholds, hleads⟩ := hothers q hq
      obtain ⟨hnet, hlogical, hselected⟩ := h.nodes q old hold
      constructor
      · simpa only [hholds] using hnet
      · apply hlogical
      · simpa only [hleads] using hselected

/-! ### Drivers to select -/

/-- The first entry of a numbered list that passes a test is found by its number. -/
theorem find?_zipIdx_eq_some_iff {α : Type} {xs : List α} {p : α → Bool} {x : α} {i : Nat} :
  xs.zipIdx.find? (fun y => p y.1) = some (x, i) ↔ xs.findIdx? p = some i ∧ xs[i]? = some x
  := by
  simp only [List.find?_eq_some_iff_getElem, List.findIdx?_eq_some_iff_getElem,
    List.getElem_zipIdx, List.length_zipIdx, Prod.mk.injEq, List.getElem?_eq_some_iff, Nat.zero_add]
  constructor
  · rintro ⟨hx, j, hj, ⟨rfl, rfl⟩, hbefore⟩
    refine ⟨⟨hj, hx, ?_⟩, hj, rfl⟩
    intro k hk
    simpa using hbefore k hk
  · rintro ⟨⟨hi, hp, hbefore⟩, -, rfl⟩
    refine ⟨hp, i, hi, ⟨rfl, rfl⟩, ?_⟩
    intro k hk
    simpa using hbefore k hk

/-- A node selects a driver from each node it lists among its drivers. -/
theorem Node.exists_selects {n : Node} {driver : NodeId} (h : ∃ d ∈ n.drivers, d.node = driver) :
  ∃ s : Selection, s.driver = driver ∧ n.Selects s
  := by
  obtain ⟨d, hd, hdriver⟩ := h
  cases hfind : n.drivers.findIdx? (·.node = driver) with
  | none =>
    have := List.findIdx?_eq_none_iff.mp hfind d hd
    simp [hdriver] at this
  | some path =>
    obtain ⟨hpath, -, -⟩ := List.findIdx?_eq_some_iff_getElem.mp hfind
    use ⟨driver, n.drivers[path].edge, path⟩, rfl, hfind
    simp [List.getElem?_eq_getElem hpath]

/-- The driving node of a selection is among the drivers. -/
theorem Node.Selects.exists_driver {n : Node} {s : Selection} (h : n.Selects s) :
  ∃ d ∈ n.drivers, d.node = s.driver
  := by
  obtain ⟨hpath, hdriver, -⟩ := List.findIdx?_eq_some_iff_getElem.mp h.1
  use n.drivers[s.path], List.getElem_mem hpath
  simpa using hdriver

/-- The driving node determines the selection. -/
theorem Node.Selects.unique {n : Node} {s s' : Selection} (h : n.Selects s) (h' : n.Selects s')
    (hdriver : s.driver = s'.driver) :
  s = s'
  := by
  obtain ⟨driver, edge, path⟩ := s
  obtain ⟨driver', edge', path'⟩ := s'
  obtain rfl := hdriver
  obtain ⟨hpath, hedge⟩ := h
  obtain ⟨hpath', hedge'⟩ := h'
  obtain rfl : path = path' := Option.some.inj (hpath.symm.trans hpath')
  obtain rfl : edge = edge' := Option.some.inj (hedge.symm.trans hedge')
  rfl

/-! ### Annotating a node -/

/-- A node without a net that is given one is held by that net as well. -/
theorem Node.Marked.claim {n : Node} {holds : NetId → Prop} {leads : NodeId → Prop}
    (h : n.Marked t holds leads) (hfree : n.net = none) {logical : LogicalId}
    (hlogical : t.logicalOf net = .ok logical) :
  Node.Marked t (fun k => holds k ∨ k = net) leads
    { n with net := some net, logical := some logical }
  := by
  constructor
  case net =>
    intro k
    have hk : ¬ holds k := by
      rw [← h.net k, hfree]
      simp
    simp [hk, eq_comm]
  case logical => simp [NetTable.logicalOf?, hlogical, pure, Except.pure]
  case selected => apply h.selected

/-- A node without a selected driver that is given one is led to by the driving node as well. -/
theorem Node.Marked.select {n : Node} {holds : NetId → Prop} {leads : NodeId → Prop}
    (h : n.Marked t holds leads) (hfree : n.selected = none) {s : Selection} (hs : n.Selects s) :
  Node.Marked t holds (fun p => leads p ∨ p = s.driver) { n with selected := some s }
  := by
  constructor
  case net => apply h.net
  case logical => apply h.logical
  case selected =>
    intro s'
    have hs' : ¬ (leads s'.driver ∧ n.Selects s') := by
      rw [← h.selected s', hfree]
      simp
    constructor
    · rintro ⟨⟩
      exact ⟨.inr rfl, hs⟩
    · rintro ⟨hleads | hdriver, hselects⟩
      · cases hs' ⟨hleads, hselects⟩
      · rw [hs.unique hselects hdriver.symm]

/-! ### Claiming a node -/

/-- A claim succeeds on a node of the net and on a node without a net. -/
theorem claim_eq_ok_iff :
  claim t net g id = .ok (count, g') ↔ ∃ n, g.node id = .ok n
    ∧ (n.net = some net ∧ count = 0 ∧ g' = g
      ∨ n.net = none ∧ count = 1 ∧ ∃ logical, t.logicalOf net = .ok logical
        ∧ g.modify id (fun n => { n with net := some net, logical := some logical }) = .ok g')
  := by
  rw [claim, bind_eq_ok_iff]
  apply exists_congr
  intro n
  apply and_congr_right
  intro _
  split
  · rename_i existing hexisting
    split
    · rename_i heq
      subst heq
      simp only [pure_eq_ok_iff, Prod.mk.injEq, hexisting, true_and]
      simp [eq_comm]
    · rename_i hne
      simp [hexisting, hne]
  · rename_i hnone
    simp only [bind_eq_ok_iff, pure_eq_ok_iff, Prod.mk.injEq, hnone]
    constructor
    · rintro ⟨logical, hlogical, _, hmodify, rfl, rfl⟩
      exact .inr ⟨trivial, rfl, logical, hlogical, hmodify⟩
    · rintro (⟨⟨⟩, -⟩ | ⟨-, rfl, logical, hlogical, hmodify⟩)
      exact ⟨logical, hlogical, g', hmodify, rfl, rfl⟩

/-- A claim adds the node to those with a net if it is counted. -/
theorem claimed_of_claim (h : claim t net g id = .ok (count, g')) :
  g'.claimed = g.claimed + count
  := by
  obtain ⟨n, hn, ⟨-, rfl, rfl⟩ | ⟨hnone, rfl, logical, -, hmodify⟩⟩ := claim_eq_ok_iff.mp h
  · rfl
  · simpa [hnone] using claimed_of_modify hn hmodify

/-- A claim that succeeds shows that no other net holds the node, and leaves it to the net. -/
theorem Marked.claim {holds : NetId → NodeId → Prop} {leads : NodeId → NodeId → Prop}
    (h : Marked t g₀ holds leads g) (hok : claim t net g id = .ok (count, g')) :
  (∀ k, holds k id → k = net)
    ∧ Marked t g₀ (fun k q => holds k q ∨ k = net ∧ q = id) leads g'
  := by
  obtain ⟨n, hn, hcases⟩ := claim_eq_ok_iff.mp hok
  have hmarked := h.nodes id n hn
  obtain ⟨hnet, rfl, rfl⟩ | ⟨hnone, rfl, logical, hlogical, hmodify⟩ := hcases
  · constructor
    · intro k hk
      rw [← hmarked.net k, hnet] at hk
      cases hk
      rfl
    · apply h.congr _ fun _ _ => Iff.rfl
      intro k q
      rw [or_iff_left_iff_imp]
      rintro ⟨rfl, rfl⟩
      apply (hmarked.net k).mp hnet
  · constructor
    · intro k hk
      rw [← hmarked.net k, hnone] at hk
      cases hk
    · apply h.modify hmodify fun _ => rfl
      · intro q hq
        simp [hq]
      · intro m hm
        rw [hn] at hm
        cases hm
        simpa using hmarked.claim hnone hlogical

/-- A node that no other net holds can be claimed. -/
theorem Marked.exists_claim {holds : NetId → NodeId → Prop} {leads : NodeId → NodeId → Prop}
    (h : Marked t g₀ holds leads g) (hid : id < g₀.size) (hnet : net < t.nets.size)
    (hfree : ∀ k, holds k id → k = net) :
  ∃ count g', RoutingGraph.claim t net g id = .ok (count, g')
  := by
  rw [← size_eq_of_view_eq h.same] at hid
  obtain ⟨n, hn⟩ := exists_node_of_lt hid
  cases hown : n.net with
  | some k =>
    obtain rfl := hfree k (((h.nodes id n hn).net k).mp hown)
    exact ⟨0, g, claim_eq_ok_iff.mpr ⟨n, hn, .inl ⟨hown, rfl, rfl⟩⟩⟩
  | none =>
    have hlogical : t.logicalOf net = .ok t.nets[net].logical := by
      rw [NetTable.logicalOf, entry_of_lt hnet]
      rfl
    exact ⟨1, _, claim_eq_ok_iff.mpr
      ⟨n, hn, .inr ⟨hown, rfl, _, hlogical, modify_eq_ok_iff.mpr ⟨hid, rfl⟩⟩⟩⟩

/-! ### Selecting a driver -/

/-- A driver can be selected that the node lists, unless the node has selected another. -/
theorem selectDriver_eq_ok_iff {driver : NodeId} :
  selectDriver t net g id driver = .ok g' ↔ ∃ n s, g.node id = .ok n ∧ s.driver = driver
    ∧ n.Selects s
    ∧ (n.selected = some s ∧ g' = g
      ∨ n.selected = none ∧ g.modify id ({ · with selected := some s }) = .ok g')
  := by
  rw [selectDriver, bind_eq_ok_iff]
  apply exists_congr
  intro n
  rw [exists_and_left]
  apply and_congr_right
  intro _
  split
  · rename_i hfind
    simp only [fail_ne_ok, false_iff]
    rintro ⟨s, rfl, hselects, -⟩
    obtain ⟨d, hd, hdriver⟩ := hselects.exists_driver
    obtain ⟨i, hi, rfl⟩ := List.mem_iff_getElem.mp hd
    have := List.find?_eq_none.mp hfind (n.drivers[i], i)
      (List.mem_zipIdx_iff_getElem?.mpr (List.getElem?_eq_getElem hi))
    simp [hdriver] at this
  · rename_i d path hfind
    obtain ⟨hpath, hd⟩ :=
      (find?_zipIdx_eq_some_iff (p := fun d : Driver => d.node = driver)).mp hfind
    have hselects : n.Selects ⟨driver, d.edge, path⟩ := by
      use hpath
      rw [hd]
      rfl
    have hunique : ∀ s, s.driver = driver ∧ n.Selects s ↔ s = ⟨driver, d.edge, path⟩ := by
      intro s
      constructor
      · rintro ⟨hdriver, hs⟩
        apply hs.unique hselects hdriver
      · rintro rfl
        exact ⟨rfl, hselects⟩
    simp only [← and_assoc, hunique, exists_eq_left]
    cases n.selected with
    | none => simp
    | some existing =>
      by_cases heq : existing = ⟨driver, d.edge, path⟩
      · simp only [heq, if_true, pure_eq_ok_iff]
        simp [eq_comm]
      · simp [heq]

/-- Selecting a driver gives no node a net. -/
theorem claimed_of_selectDriver {driver : NodeId} (h : selectDriver t net g id driver = .ok g') :
  g'.claimed = g.claimed
  := by
  obtain ⟨n, s, hn, -, -, ⟨-, rfl⟩ | ⟨-, hmodify⟩⟩ := selectDriver_eq_ok_iff.mp h
  · rfl
  · simpa using claimed_of_modify hn hmodify

/-- A selection that succeeds shows that no other node leads to the node, and leaves it led to by
the driving node. -/
theorem Marked.selectDriver {holds : NetId → NodeId → Prop} {leads : NodeId → NodeId → Prop}
    (h : Marked t g₀ holds leads g) {driver : NodeId}
    (hok : selectDriver t net g id driver = .ok g') :
  g₀.HasDriver id driver ∧ (∀ p, leads p id → g₀.HasDriver id p → p = driver)
    ∧ Marked t g₀ holds (fun p q => leads p q ∨ p = driver ∧ q = id) g'
  := by
  obtain ⟨n, s, hn, rfl, hselects, hcases⟩ := selectDriver_eq_ok_iff.mp hok
  have hled := (h.nodes id n hn).selected
  obtain ⟨n₀, hn₀, hsame⟩ := exists_node_of_view_eq h.same hn
  have hdrivers : n.drivers = n₀.drivers := by
    simpa using congrArg Node.drivers hsame
  -- each node that leads here and is a driver has been selected
  have hselected : ∀ p, leads p id → g₀.HasDriver id p →
      ∃ s', s'.driver = p ∧ n.selected = some s' := by
    rintro p hp ⟨m, hm, hdriver⟩
    rw [hn₀] at hm
    cases hm
    rw [← hdrivers] at hdriver
    obtain ⟨s', rfl, hs'⟩ := n.exists_selects hdriver
    exact ⟨s', rfl, (hled s').mpr ⟨hp, hs'⟩⟩
  refine ⟨⟨n₀, hn₀, hdrivers ▸ hselects.exists_driver⟩, ?_, ?_⟩
  · intro p hp hdriver
    obtain ⟨s', rfl, hs'⟩ := hselected p hp hdriver
    obtain ⟨hsome, -⟩ | ⟨hnone, -⟩ := hcases
    · rw [hsome] at hs'
      cases hs'
      rfl
    · rw [hnone] at hs'
      cases hs'
  · obtain ⟨hsome, rfl⟩ | ⟨hnone, hmodify⟩ := hcases
    · apply h.congr fun _ _ => Iff.rfl
      intro p q
      rw [or_iff_left_iff_imp]
      rintro ⟨rfl, rfl⟩
      apply ((hled s).mp hsome).1
    · apply h.modify hmodify fun _ => rfl
      · intro q hq
        simp [hq]
      · intro m hm
        rw [hn] at hm
        cases hm
        simpa using (h.nodes id n hn).select hnone hselects

/-- A driver that a node lists can be selected if no other node leads to the node. -/
theorem Marked.exists_selectDriver {holds : NetId → NodeId → Prop} {leads : NodeId → NodeId → Prop}
    (h : Marked t g₀ holds leads g) {driver : NodeId} (hdriver : g₀.HasDriver id driver)
    (hfree : ∀ p, leads p id → p = driver) :
  ∃ g', RoutingGraph.selectDriver t net g id driver = .ok g'
  := by
  obtain ⟨n₀, hn₀, hmem⟩ := hdriver
  obtain ⟨n, hn, hsame⟩ := exists_node_of_view_eq h.same.symm hn₀
  have hdrivers : n₀.drivers = n.drivers := by
    simpa using congrArg Node.drivers hsame
  rw [hdrivers] at hmem
  obtain ⟨s, rfl, hselects⟩ := n.exists_selects hmem
  cases hown : n.selected with
  | some s' =>
    obtain ⟨hleads, hselects'⟩ := ((h.nodes id n hn).selected s').mp hown
    rw [hselects'.unique hselects (hfree _ hleads)] at hown
    exact ⟨g, selectDriver_eq_ok_iff.mpr ⟨n, s, hn, rfl, hselects, .inl ⟨hown, rfl⟩⟩⟩
  | none =>
    have hid := (Array.getElem?_eq_some_iff.mp (entry_eq_ok_iff.mp hn)).1
    exact ⟨_, selectDriver_eq_ok_iff.mpr
      ⟨n, s, hn, rfl, hselects, .inr ⟨hown, modify_eq_ok_iff.mpr ⟨hid, rfl⟩⟩⟩⟩

end RoutingFabric.RoutingGraph
