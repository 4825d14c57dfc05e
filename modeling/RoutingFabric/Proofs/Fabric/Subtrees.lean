import RoutingFabric.Proofs.Fabric.Trees
import RoutingFabric.Proofs.RoutingGraph.Faults

/-!
# Forwarding colours a routed subtree

In a fabric whose nets have been traced, the nodes below a node are those from which selected
drivers lead up to it. Forwarding the logical net of the node gives it to the nodes below, whatever
logical nets they carry, and to no others. What is counted are the nodes below that carried another
one. It comes to an end as long as no loop of links is reached from the node.
-/

namespace RoutingFabric

namespace RoutingGraph

open Relation

/-- Selected drivers lead from the second node up to the first, which is another one. -/
def Above (g : RoutingGraph) (id q : NodeId) : Prop := q ≠ id ∧ ∃ path, g.Climbs id q path

variable {g g' : RoutingGraph} {logical : Option LogicalId} {id q : NodeId} {count : Nat}

/-! ### The nodes below a node -/

/-- Links lead down exactly where selected drivers lead up. -/
theorem exists_climbs_iff : (∃ path, g.Climbs id q path) ↔ ReflTransGen g.Linked id q := by
  constructor
  · rintro ⟨path, h⟩
    apply h.reaches
  · intro h
    induction h with
    | refl => exact ⟨[id], .here⟩
    | @tail p q _ hlink ih =>
      obtain ⟨path, hpath⟩ := ih
      exact ⟨q :: path, .up hlink hpath⟩

/-- Where links do not lead back to a node, they lead from it to the nodes below. -/
theorem above_iff_transGen (hloop : ¬ TransGen g.Linked id id) :
  g.Above id q ↔ TransGen g.Linked id q
  := by
  rw [Above, exists_climbs_iff, reflTransGen_iff_eq_or_transGen]
  constructor
  · rintro ⟨hne, heq | h⟩
    · cases hne heq
    · apply h
  · intro h
    refine ⟨?_, .inr h⟩
    rintro rfl
    apply hloop h

/-! ### Counting nodes below a node -/

/-- The nodes that carry another logical net, found by their ids. -/
theorem unlike_eq_countP (g : RoutingGraph) (logical : Option LogicalId) :
  g.unlike logical = g.ids.countP fun q => g.logicalAt q ≠ logical
  := by
  have hids : g.ids = g.nodes.toList.zipIdx.map (·.2) := by
    rw [List.zipIdx_map_snd, ids, size, ← Array.length_toList, List.range_eq_range']
  have hnodes : g.nodes.toList = g.nodes.toList.zipIdx.map (·.1) := by
    rw [List.zipIdx_map_fst]
  calc g.unlike logical
    _ = (g.nodes.toList.zipIdx.map (·.1)).countP (·.logical ≠ logical) := by
      rw [← hnodes, Array.countP_toList, unlike]
    _ = (g.nodes.toList.zipIdx.map (·.2)).countP fun q => g.logicalAt q ≠ logical := by
      rw [List.countP_map, List.countP_map]
      apply List.countP_congr
      rintro ⟨n, q⟩ hn
      rw [List.mem_zipIdx_iff_getElem?, Array.getElem?_toList] at hn
      simp [logicalAt, hn]
    _ = g.ids.countP fun q => g.logicalAt q ≠ logical := by
      rw [hids]

open Classical in
/-- Forwarding counts the nodes that links lead to and that carried another logical net. -/
theorem count_of_forwardLogical (hg : g.Wired) (h : g.forwardLogical id = .ok (count, g')) :
  count = g.ids.countP fun q => TransGen g.Linked id q ∧ g.logicalAt q ≠ g.logicalAt id
  := by
  obtain ⟨hsame, hlogical⟩ := logicalAt_of_forwardLogical hg h
  have hcount := unlike_of_forwardLogical h
  have hids : g'.ids = g.ids := congrArg List.range (size_eq_of_view_eq hsame)
  -- nodes that are not reached carry what they did before, and all others what is forwarded
  have hleft : g'.unlike (g.logicalAt id)
      = g.ids.countP fun q => ¬ TransGen g.Linked id q ∧ g.logicalAt q ≠ g.logicalAt id := by
    rw [unlike_eq_countP, hids]
    apply List.countP_congr
    intro q _
    rw [hlogical q]
    by_cases hq : TransGen g.Linked id q <;> simp [hq]
  have hsplit : g.unlike (g.logicalAt id)
      = (g.ids.countP fun q => TransGen g.Linked id q ∧ g.logicalAt q ≠ g.logicalAt id)
        + g.ids.countP fun q => ¬ TransGen g.Linked id q ∧ g.logicalAt q ≠ g.logicalAt id := by
    rw [unlike_eq_countP, List.countP_eq_countP_filter_add _ _ fun q => TransGen g.Linked id q,
      List.countP_filter, List.countP_filter]
    congr 2 <;> funext q <;> simp [Bool.and_comm]
  omega

end RoutingGraph

namespace Fabric

open Relation RoutingGraph

open Classical in
/-- In a traced graph, whatever logical nets its nodes carry, forwarding the logical net of a node
from which no loop is reached gives it to the nodes below the node, and changes nothing else. -/
theorem colours_of_traceAll (f₀ f : Fabric) (t : NetTable) (skip : Bool) (stats : RoutingStats)
    (traced g : RoutingGraph) (id : NodeId) (hprepare : prepare.Gives f₀ () f)
    (htrace : (traceAll t skip).Gives f.graph stats traced) (hassigned : g.silent = traced.silent)
    (hid : id < g.size)
    (hloops : ∀ q, ReflTransGen g.Linked id q → ¬ TransGen g.Linked q q) :
  ∃ count g', g.forwardLogical id = .ok (count, g')
    ∧ g'.silent = g.silent
    ∧ (∀ q, g'.logicalAt q = if g.Above id q then g.logicalAt id else g.logicalAt q)
    ∧ count = g.ids.countP fun q => g.Above id q ∧ g.logicalAt q ≠ g.logicalAt id
  := by
  have htraced := (tracedBefore_of_traceAll htrace).traced
  have hwired : g.Wired :=
    (htraced.wired (bindings_of_prepare hprepare).1).of_silent_eq hassigned.symm
  have hloop := hloops id .refl
  obtain ⟨count, g', h⟩ := (exists_forwardLogical_iff hwired hid).mpr hloop
  obtain ⟨hsame, hlogical⟩ := logicalAt_of_forwardLogical hwired h
  have habove : g.Above id = TransGen g.Linked id := by
    funext q
    apply propext (above_iff_transGen hloop)
  refine ⟨count, g', h, hsame, ?_, ?_⟩
  · rw [habove]
    apply hlogical
  · rw [habove]
    apply count_of_forwardLogical hwired h

/-- A pin that drives a wire over two edges, from which a sink and another wire with a sink are
reached. The other wire could drive the first one. Two further wires drive each other. -/
def branchFabric : Fabric where
  grid := ⟨2, 2⟩
  graph := {
    switches := #[{ name := "switch" }]
    nodes := #[
      { kind := .outPin, low := ⟨0, 0⟩, high := ⟨0, 0⟩, ptc := 0, edges := [⟨1, 0⟩, ⟨1, 0⟩] },
      { kind := .channelX, low := ⟨0, 0⟩, high := ⟨1, 0⟩, ptc := 0, direction := some .increasing,
        fanIn := 3, edges := [⟨2, 0⟩, ⟨3, 0⟩] },
      { kind := .channelX, low := ⟨1, 0⟩, high := ⟨1, 0⟩, ptc := 1, direction := some .increasing,
        fanIn := 1, edges := [⟨1, 0⟩, ⟨4, 0⟩] },
      { kind := .sink, low := ⟨1, 0⟩, high := ⟨1, 0⟩, ptc := 1, fanIn := 1 },
      { kind := .sink, low := ⟨1, 0⟩, high := ⟨1, 0⟩, ptc := 2, fanIn := 1 },
      { kind := .channelX, low := ⟨0, 1⟩, high := ⟨1, 1⟩, ptc := 2, direction := some .increasing,
        fanIn := 1, edges := [⟨6, 0⟩] },
      { kind := .channelX, low := ⟨0, 1⟩, high := ⟨1, 1⟩, ptc := 3, direction := some .increasing,
        fanIn := 1, edges := [⟨5, 0⟩] }]
    lookup := [0, 1, 2, 3, 4, 5, 6] }
  nets := {
    nets := #[
      { name := "branch", logical := 0, trace := [0, 1, 2, 4, 1, 3] },
      { name := "ring", logical := 1, trace := [5, 6, 5] }]
    logicals := #[⟨"branch"⟩, ⟨"ring"⟩] }

/-- The fabric after preparation. -/
def preparedBranch : Fabric :=
  { branchFabric with graph :=
      ((do buildDriverIndex; identifyDriverSwitches).run branchFabric.graph).state }

/-- The graph of the fabric after the nets are traced. -/
def tracedBranch : RoutingGraph := ((traceAll branchFabric.nets true).run preparedBranch.graph).state

/-- The traced graph where the first wire and the sink at its far end carry another logical net. -/
def assignedBranch : RoutingGraph :=
  let nodes := tracedBranch.nodes.modify 1 ({ · with logical := some 1 })
  { tracedBranch with nodes := nodes.modify 4 ({ · with logical := some 1 }) }

/-- Links from the nodes of the tree lead on to later nodes of the tree. -/
theorem linked_assignedBranch {p q : Nat} (h : assignedBranch.Linked p q) (hp : p < 5) :
  p < q ∧ q < 5
  := by
  have hall : ∀ q < assignedBranch.size, ∀ n ∈ assignedBranch.nodes[q]?, ∀ s ∈ n.selected,
      s.driver < 5 → s.driver < q ∧ q < 5 := by
    decide +kernel
  revert hp
  apply h.of_selected hall

/-- No loop is reached from the first wire, though there is one elsewhere. -/
theorem not_transGen_assignedBranch {q : Nat} (h : ReflTransGen assignedBranch.Linked 1 q) :
  ¬ TransGen assignedBranch.Linked q q
  := by
  have htree : q < 5 := by
    induction h with
    | refl => decide
    | tail _ hlink ih => apply (linked_assignedBranch hlink ih).2
  have hlater : ∀ r : Nat, TransGen assignedBranch.Linked q r → q < r ∧ r < 5 := by
    intro r hr
    induction hr with
    | single hlink => apply linked_assignedBranch hlink htree
    | tail _ hlink ih =>
      obtain ⟨hlt, htop⟩ := linked_assignedBranch hlink ih.2
      exact ⟨ih.1.trans hlt, htop⟩
  intro hloop
  apply Nat.lt_irrefl q (hlater q hloop).1

open Classical in
/-- The logical net of the first wire is given to the three nodes below, two of which carried
another one. -/
theorem colours_branch :
  prepare.Gives branchFabric () preparedBranch
    ∧ (traceAll branchFabric.nets true).Gives preparedBranch.graph
      { routed := 2, annotated := 7 } tracedBranch
    ∧ assignedBranch.silent = tracedBranch.silent
    ∧ 1 < assignedBranch.size
    ∧ (∀ q, ReflTransGen assignedBranch.Linked 1 q → ¬ TransGen assignedBranch.Linked q q)
    ∧ (∃ count g', assignedBranch.forwardLogical 1 = .ok (count, g')
      ∧ g'.silent = assignedBranch.silent
      ∧ (∀ q, g'.logicalAt q
        = if assignedBranch.Above 1 q then assignedBranch.logicalAt 1 else assignedBranch.logicalAt q)
      ∧ count = assignedBranch.ids.countP fun q =>
        assignedBranch.Above 1 q ∧ assignedBranch.logicalAt q ≠ assignedBranch.logicalAt 1)
    ∧ (assignedBranch.forwardLogical 1).map (·.1) = .ok 2
  := by
  have hprepare : prepare.Gives branchFabric () preparedBranch := by
    apply prepare_of_inOrder rfl (g := preparedBranch.graph)
    · decide
    · constructor
      · decide +kernel
      · rfl
    · decide +kernel
    · apply Phase.gives_pure_iff.mpr ⟨rfl, rfl⟩
  have htrace : (traceAll branchFabric.nets true).Gives preparedBranch.graph
      { routed := 2, annotated := 7 } tracedBranch := ⟨by decide +kernel, rfl⟩
  have hassigned : assignedBranch.silent = tracedBranch.silent := by
    have hnodes : assignedBranch.nodes.map Node.silent = tracedBranch.nodes.map Node.silent := by
      decide +kernel
    rw [RoutingGraph.silent, view, hnodes]
    rfl
  have hsize : 1 < assignedBranch.size := by decide +kernel
  have hloops : ∀ q, ReflTransGen assignedBranch.Linked 1 q
      → ¬ TransGen assignedBranch.Linked q q := fun q => not_transGen_assignedBranch
  exact ⟨hprepare, htrace, hassigned, hsize, hloops,
    colours_of_traceAll _ _ _ _ _ _ _ _ hprepare htrace hassigned hsize hloops, by decide +kernel⟩

end Fabric

end RoutingFabric
