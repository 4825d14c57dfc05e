import RoutingFabric.Proofs.RoutingGraph.Forwarding
import RoutingFabric.Proofs.RoutingGraph.Preparation

/-!
# Faults of tracing and forwarding

Nets are traced without a fault on any graph, since nodes of a trace are looked for before anything
else is done with them. A logical net is forwarded without a fault unless links lead in a loop. No
node is counted twice in either.
-/

namespace RoutingFabric.RoutingGraph

open Relation

variable {P : Fault → Prop} {Q : Event → Prop} {t : NetTable} {net : NetId}
variable {g g' : RoutingGraph} {id : NodeId} {count : Nat}

/-! ### Tracing -/

/-- A claim leaves the number of nodes. -/
theorem size_of_claim (h : claim t net g id = .ok (count, g')) : g'.size = g.size := by
  obtain ⟨n, -, ⟨-, -, rfl⟩ | ⟨-, -, logical, -, hmodify⟩⟩ := claim_eq_ok_iff.mp h
  · rfl
  · apply size_of_modify hmodify

/-- Selecting a driver leaves the number of nodes. -/
theorem size_of_selectDriver {driver : NodeId} (h : selectDriver t net g id driver = .ok g') :
  g'.size = g.size
  := by
  obtain ⟨n, s, -, -, -, ⟨-, rfl⟩ | ⟨-, hmodify⟩⟩ := selectDriver_eq_ok_iff.mp h
  · rfl
  · apply size_of_modify hmodify

/-- Entering a node leaves the number of nodes. -/
theorem size_of_enter {standing : TraceState} (h : enter t net g standing id = .ok (count, g')) :
  g'.size = g.size
  := by
  cases standing with
  | start => apply size_of_claim h
  | «from» driver =>
    obtain ⟨⟨here, g''⟩, hclaim, h⟩ := bind_eq_ok_iff.mp h
    obtain ⟨_, hselect, h⟩ := bind_eq_ok_iff.mp h
    cases pure_eq_ok_iff.mp h
    rw [size_of_selectDriver hselect, size_of_claim hclaim]
  | branch =>
    obtain ⟨n, -, h⟩ := bind_eq_ok_iff.mp h
    split at h
    · cases pure_eq_ok_iff.mp h
      rfl
    · cases fail_ne_ok h

/-- Walking a trace leaves the number of nodes. -/
theorem size_of_walkTrace {standing : TraceState} {ids : List NodeId}
    (h : walkTrace t net g standing ids = .ok (count, g')) :
  g'.size = g.size
  := by
  induction ids generalizing standing g count with
  | nil =>
    cases pure_eq_ok_iff.mp h
    rfl
  | cons id ids ih =>
    rw [walkTrace] at h
    split at h
    · obtain ⟨⟨here, g''⟩, henter, h⟩ := bind_eq_ok_iff.mp h
      obtain ⟨n, -, h⟩ := bind_eq_ok_iff.mp h
      obtain ⟨⟨beyond, last⟩, hrest, h⟩ := bind_eq_ok_iff.mp h
      cases pure_eq_ok_iff.mp h
      rw [ih hrest, size_of_enter henter]
    · cases fail_ne_ok h

/-- A node of the graph is claimed by a net of the table, or another one holds it. -/
theorem faultsIn_claim (hid : id < g.size) (hnet : net < t.nets.size) :
  FaultsIn P (claim t net g id)
  := by
  apply (faultsIn_entry hid).bind
  rintro n -
  split
  · split
    · apply faultsIn_ok
    · apply faultsIn_fail
  · apply FaultsIn.bind
    · apply (faultsIn_entry hnet).bind
      rintro m -
      apply faultsIn_ok
    · rintro logical -
      apply (faultsIn_modify hid).bind
      rintro g' -
      apply faultsIn_ok

/-- A node of the graph selects a driver, or cannot. -/
theorem faultsIn_selectDriver {driver : NodeId} (hid : id < g.size) :
  FaultsIn P (selectDriver t net g id driver)
  := by
  apply (faultsIn_entry hid).bind
  rintro n -
  split
  · apply faultsIn_fail
  · dsimp only
    split
    · split
      · apply faultsIn_ok
      · apply faultsIn_fail
    · apply faultsIn_modify hid

/-- A node of the graph is entered, or cannot be. -/
theorem faultsIn_enter {standing : TraceState} (hid : id < g.size) (hnet : net < t.nets.size) :
  FaultsIn P (enter t net g standing id)
  := by
  cases standing with
  | start => apply faultsIn_claim hid hnet
  | «from» driver =>
    apply (faultsIn_claim hid hnet).bind
    rintro ⟨here, g'⟩ hclaim
    apply FaultsIn.bind
    · apply faultsIn_selectDriver
      rw [size_of_claim hclaim]
      apply hid
    · rintro g'' -
      apply faultsIn_ok
  | branch =>
    apply (faultsIn_entry hid).bind
    rintro n -
    split
    · apply faultsIn_ok
    · apply faultsIn_fail

/-- A trace of a net of the table is walked, or cannot be. -/
theorem faultsIn_walkTrace {standing : TraceState} {ids : List NodeId} (hnet : net < t.nets.size) :
  FaultsIn P (walkTrace t net g standing ids)
  := by
  induction ids generalizing g standing with
  | nil => apply faultsIn_ok
  | cons id ids ih =>
    rw [walkTrace]
    split
    · rename_i hid
      apply (faultsIn_enter hid hnet).bind
      rintro ⟨here, g'⟩ henter
      rw [← size_of_enter henter] at hid
      apply (faultsIn_entry hid).bind
      rintro n -
      apply ih.bind
      rintro ⟨beyond, g''⟩ -
      apply faultsIn_ok
    · apply faultsIn_fail

/-- A net of the table is traced, or cannot be. -/
theorem safe_traceNet {skip : Bool} {n : Net} {stats : RoutingStats} (hnet : net < t.nets.size)
    (hskip : ∀ name, Q (.dedicatedNetSkipped name)) :
  (traceNet t net skip n stats).Safe P Q g
  := by
  rw [traceNet]
  split
  · apply Phase.safe_report_bind (hskip n.name)
    apply Phase.safe_pure
  · split
    · apply Phase.safe_lift
      apply faultsIn_fail
    · apply Phase.safe_state_bind
      apply Phase.safe_lift_bind (faultsIn_walkTrace hnet)
      rintro ⟨count, g'⟩ -
      apply Phase.safe_put_bind
      apply Phase.safe_pure

/-- The nets of a list that are in the table are traced, or cannot be. -/
theorem safe_traceNets {skip : Bool} {ns : List Net} {stats : RoutingStats}
    (hns : net + ns.length ≤ t.nets.size) (hskip : ∀ name, Q (.dedicatedNetSkipped name)) :
  (traceNets t skip net stats ns).Safe P Q g
  := by
  induction ns generalizing g net stats with
  | nil => apply Phase.safe_pure
  | cons n ns ih =>
    rw [List.length_cons, Nat.add_comm ns.length, ← Nat.add_assoc] at hns
    apply (safe_traceNet _ hskip).bind
    · rintro stats' g' -
      apply ih hns
    · apply Nat.lt_of_lt_of_le (Nat.lt_succ_self net)
      apply Nat.le_trans (Nat.le_add_right _ _) hns

/-- A net that is traced or left out is counted. -/
theorem stats_of_traceNet {skip : Bool} {n : Net} {stats stats' : RoutingStats}
    (h : (traceNet t net skip n stats).Gives g stats' g') :
  stats'.routed + stats'.skipped = stats.routed + stats.skipped + 1
  := by
  rw [traceNet] at h
  split at h
  · simp only [Phase.gives_bind_iff, Phase.gives_pure_iff] at h
    obtain ⟨_, _, -, rfl, -⟩ := h
    rw [Nat.add_assoc]
  · split at h
    · simp at h
    · simp only [Phase.gives_bind_iff, Phase.gives_pure_iff] at h
      obtain ⟨_, _, -, _, _, -, _, _, -, rfl, -⟩ := h
      rw [Nat.add_right_comm]

/-- Each net that is traced or left out is counted. -/
theorem stats_of_traceNets {skip : Bool} {ns : List Net} {stats stats' : RoutingStats}
    (h : (traceNets t skip net stats ns).Gives g stats' g') :
  stats'.routed + stats'.skipped = stats.routed + stats.skipped + ns.length
  := by
  induction ns generalizing g net stats with
  | nil =>
    obtain ⟨rfl, -⟩ := Phase.gives_pure_iff.mp h
    rfl
  | cons n ns ih =>
    obtain ⟨stats'', g'', hnet, h⟩ := Phase.gives_bind_iff.mp h
    rw [ih h, stats_of_traceNet hnet, List.length_cons, Nat.add_assoc, Nat.add_comm 1]

/-- No more nodes have a net than there are. -/
theorem claimed_le (g : RoutingGraph) : g.claimed ≤ g.size := Array.countP_le_size

/-- Where all nets are traced, each net is counted once, and so is each node that has a net. -/
theorem counts_of_traceNets {skip : Bool} {stats : RoutingStats}
    (h : (traceNets t skip 0 {} t.nets.toList).Gives g.unannotated stats g') :
  stats.routed + stats.skipped = t.nets.size ∧ stats.annotated ≤ g.size
  := by
  have hbefore := (tracedBefore_zero skip).traceNets rfl h
  constructor
  · simpa using stats_of_traceNets h
  · rw [hbefore.annotated, ← size_eq_of_view_eq hbefore.marked.same]
    apply claimed_le

/-- Tracing counts each net once, and so it does each node that has a net. -/
theorem counts_of_traceAll {skip : Bool} {stats : RoutingStats}
    (h : (traceAll t skip).Gives g stats g') :
  stats.routed + stats.skipped = t.nets.size ∧ stats.annotated ≤ g.size
  := by
  simp only [traceAll, Phase.gives_bind_iff, Phase.gives_state_iff, Phase.gives_put_iff,
    Phase.gives_report_iff, Phase.gives_pure_iff] at h
  obtain ⟨_, _, ⟨rfl, rfl⟩, _, _, rfl, _, _, htrace, _, _, rfl, rfl, rfl⟩ := h
  apply counts_of_traceNets htrace

/-- All nets are traced, or cannot be. -/
theorem safe_traceAll {skip : Bool} (hskip : ∀ name, Q (.dedicatedNetSkipped name))
    (hrouted : ∀ routed annotated skipped, routed + skipped = t.nets.size →
      annotated ≤ g.size → Q (.netsRouted routed annotated skipped)) :
  (traceAll t skip).Safe P Q g
  := by
  apply Phase.safe_state_bind
  apply Phase.safe_put_bind
  apply (safe_traceNets (by simp) hskip).bind
  intro stats g' htrace
  obtain ⟨hnets, hnodes⟩ := counts_of_traceNets htrace
  apply Phase.safe_report_bind (hrouted _ _ _ hnets hnodes)
  apply Phase.safe_pure

/-- After tracing, the logical net is found that a node was given with its net. -/
theorem exists_logicalOf_of_traced {skip : Bool} {stats : RoutingStats} {n : Node}
    (h : Traced t skip g stats g') (hn : g'.node id = .ok n) :
  ∃ logical, t.logicalOf? n.net = .ok logical
  := ⟨_, (h.marked.nodes id n hn).logical⟩

/-! ### Forwarding -/

variable {logical : Option LogicalId} {ids : List NodeId} {more : Nat}

/-- Forwarding from nodes of the graph comes to an end, or goes on for ever. -/
theorem faultsIn_forwardFrom (hg : g.Wired) (hids : ∀ id ∈ ids, id < g.size) :
  FaultsIn (· = .endless) (forwardFrom logical more ids g)
  := by
  induction more generalizing g ids with
  | zero =>
    cases ids with
    | nil => apply faultsIn_ok
    | cons id ids =>
      apply faultsIn_fault
      rfl
  | succ more ih =>
    cases ids with
    | nil => apply faultsIn_ok
    | cons id ids =>
      obtain ⟨hid, hids⟩ := List.forall_mem_cons.mp hids
      obtain ⟨reached, hreached, -, hlinked⟩ := hg.exists_selectedFanout hid
      have hlt : ∀ q ∈ reached, q < g.size := fun q hq => ((hlinked q).mp hq).lt
      obtain ⟨here, g', hgive⟩ : ∃ here g', g.giveLogical logical reached = .ok (here, g') :=
        exists_giveLogical hlt
      obtain ⟨hsame, -⟩ := logicalAt_of_giveLogical hgive
      rw [forwardFrom, hreached, ok_bind, hgive, ok_bind]
      apply FaultsIn.bind
      · apply ih (hg.of_silent_eq hsame.symm)
        rw [size_eq_of_view_eq hsame]
        intro q hq
        rcases List.mem_append.mp hq with hq | hq
        · apply hlt q (List.mem_reverse.mp hq)
        · apply hids q hq
      · rintro ⟨beyond, g''⟩ -
        apply faultsIn_ok

/-- Following links has no end. -/
def Unending (g : RoutingGraph) (e : Fault) : Prop := e = .endless ∧ ∃ q, TransGen g.Linked q q

/-- Whether following links has an end does not depend on logical nets. -/
theorem unending_congr (h : g.silent = g'.silent) : g.Unending = g'.Unending := by
  funext e
  rw [Unending, Unending, linked_congr h]

/-- A logical net is forwarded from a node of the graph, unless links lead back to the node. -/
theorem faultsIn_forwardLogical (hg : g.Wired) (hid : id < g.size) :
  FaultsIn g.Unending (g.forwardLogical id)
  := by
  obtain ⟨n, hn⟩ := exists_node_of_lt hid
  have hendless : FaultsIn (· = .endless) (g.forwardLogical id) := by
    rw [forwardLogical, hn, ok_bind]
    apply faultsIn_forwardFrom hg
    simpa using hid
  constructor
  intro e he
  refine ⟨hendless.property e he, ?_⟩
  by_contra hacyclic
  obtain ⟨count, g', hok⟩ :=
    (exists_forwardLogical_iff hg hid).mpr fun hloop => hacyclic ⟨id, hloop⟩
  rw [hok] at he
  cases he

/-! ### Counting nodes -/

/-- The number of nodes that carry another logical net. -/
def unlike (g : RoutingGraph) (logical : Option LogicalId) : Nat :=
  g.nodes.countP (·.logical ≠ logical)

/-- Nodes that are given a logical net are counted if they carried another. -/
theorem unlike_of_giveLogical (h : g.giveLogical logical ids = .ok (count, g')) :
  g'.unlike logical + count = g.unlike logical
  := by
  induction ids generalizing g count with
  | nil =>
    cases pure_eq_ok_iff.mp h
    rfl
  | cons id ids ih =>
    obtain ⟨n, hn, h⟩ := bind_eq_ok_iff.mp h
    obtain ⟨g'', hmodify, h⟩ := bind_eq_ok_iff.mp h
    obtain ⟨⟨beyond, _⟩, hrest, h⟩ := bind_eq_ok_iff.mp h
    cases pure_eq_ok_iff.mp h
    obtain ⟨-, rfl⟩ := modify_eq_ok_iff.mp hmodify
    have hone : (if n.logical = logical then 0 else 1) = (decide (n.logical ≠ logical)).toNat := by
      by_cases hlike : n.logical = logical <;> simp [hlike]
    rw [Nat.add_left_comm, ih hrest, hone, Nat.add_comm]
    simpa [unlike] using countP_modify (·.logical ≠ logical) ({ · with logical })
      (entry_eq_ok_iff.mp hn)

/-- Nodes are counted where a logical net is forwarded if they carried another. -/
theorem unlike_of_forwardFrom (h : forwardFrom logical more ids g = .ok (count, g')) :
  g'.unlike logical + count = g.unlike logical
  := by
  induction more generalizing g ids count with
  | zero =>
    cases ids with
    | nil =>
      cases pure_eq_ok_iff.mp h
      rfl
    | cons id ids => cases fault_ne_ok h
  | succ more ih =>
    cases ids with
    | nil =>
      cases pure_eq_ok_iff.mp h
      rfl
    | cons id ids =>
      obtain ⟨reached, -, h⟩ := bind_eq_ok_iff.mp h
      obtain ⟨⟨here, g''⟩, hgive, h⟩ := bind_eq_ok_iff.mp h
      obtain ⟨⟨beyond, _⟩, hrest, h⟩ := bind_eq_ok_iff.mp h
      cases pure_eq_ok_iff.mp h
      have := unlike_of_giveLogical hgive
      have := ih hrest
      omega

/-- Nodes are counted where the logical net of a node is forwarded if they carried another. -/
theorem unlike_of_forwardLogical (h : g.forwardLogical id = .ok (count, g')) :
  g'.unlike (g.logicalAt id) + count = g.unlike (g.logicalAt id)
  := by
  obtain ⟨n, hn, h⟩ := bind_eq_ok_iff.mp h
  rw [logicalAt_of_node hn]
  apply unlike_of_forwardFrom h

/-- No more nodes carry another logical net than there are. -/
theorem unlike_le : g.unlike logical ≤ g.size := Array.countP_le_size

end RoutingFabric.RoutingGraph
