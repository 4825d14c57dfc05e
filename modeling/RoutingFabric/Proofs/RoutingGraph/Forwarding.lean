import Mathlib.Data.List.Nodup
import Mathlib.Data.List.Perm.Subperm
import Mathlib.Logic.Relation
import RoutingFabric.Proofs.RoutingGraph.Links

/-!
# Forwarding reaches what links reach

Forwarding a logical net gives it to the nodes that links lead to from a node, and to no others.
It comes to an end exactly if the links do not lead back to the node: since a node is reached by
one link at most, no node is then followed twice, and there are no more nodes to follow than the
graph has.
-/

namespace RoutingFabric.RoutingGraph

open Relation

variable {g g' : RoutingGraph} {logical : Option LogicalId} {id p q : NodeId}
variable {ids : List NodeId} {count more : Nat}

/-! ### Giving a logical net -/

open Classical in
/-- Giving a logical net to nodes changes the logical nets of those nodes, and nothing else. -/
theorem logicalAt_of_giveLogical (h : g.giveLogical logical ids = .ok (count, g')) :
  g'.silent = g.silent ∧ ∀ q, g'.logicalAt q = if q ∈ ids then logical else g.logicalAt q
  := by
  induction ids generalizing g count with
  | nil =>
    cases pure_eq_ok_iff.mp h
    simp
  | cons id ids ih =>
    obtain ⟨n, -, h⟩ := bind_eq_ok_iff.mp h
    obtain ⟨g'', hmodify, h⟩ := bind_eq_ok_iff.mp h
    obtain ⟨⟨beyond, _⟩, hrest, h⟩ := bind_eq_ok_iff.mp h
    cases pure_eq_ok_iff.mp h
    obtain ⟨hsame, hlogical⟩ := ih hrest
    constructor
    · rw [hsame]
      exact view_of_modify (r := Node.silent) hmodify fun _ => rfl
    · intro q
      rw [hlogical q, logicalAt_of_modify hmodify q]
      by_cases hq : q = id <;> simp [hq]

/-- A logical net can be given to nodes of the graph. -/
theorem exists_giveLogical (h : ∀ q ∈ ids, q < g.size) :
  ∃ count g', g.giveLogical logical ids = .ok (count, g')
  := by
  induction ids generalizing g with
  | nil => exact ⟨0, g, rfl⟩
  | cons id ids ih =>
    have hid := h id List.mem_cons_self
    obtain ⟨n, hn⟩ := exists_node_of_lt hid
    have hmodify : g.modify id ({ · with logical }) = .ok _ := modify_eq_ok_iff.mpr ⟨hid, rfl⟩
    have hrest : ∀ q ∈ ids, q < ({ g with nodes := g.nodes.modify id ({ · with logical }) } :
        RoutingGraph).size := by
      intro q hq
      rw [size_of_modify hmodify]
      apply h q (List.mem_cons_of_mem id hq)
    obtain ⟨count, g', hgive⟩ := ih hrest
    use (if n.logical = logical then 0 else 1) + count, g'
    rw [giveLogical, hn, ok_bind, hmodify, ok_bind, hgive]
    rfl

/-! ### Forwarding from nodes -/

/-- Forwarding from a node gives the logical net to the nodes that it is linked to, and goes on from
them. -/
theorem exists_of_forwardFrom_cons (hg : g.Wired)
    (h : forwardFrom logical (more + 1) (id :: ids) g = .ok (count, g')) :
  ∃ reached here beyond g'', (∀ q, q ∈ reached ↔ g.Linked id q)
    ∧ g.giveLogical logical reached = .ok (here, g'')
    ∧ forwardFrom logical more (reached.reverse ++ ids) g'' = .ok (beyond, g')
  := by
  obtain ⟨reached, hreached, h⟩ := bind_eq_ok_iff.mp h
  obtain ⟨⟨here, g''⟩, hgive, h⟩ := bind_eq_ok_iff.mp h
  obtain ⟨⟨beyond, _⟩, hrest, h⟩ := bind_eq_ok_iff.mp h
  cases pure_eq_ok_iff.mp h
  obtain ⟨n, hn, -⟩ := bind_eq_ok_iff.mp hreached
  obtain ⟨_, hreached', -, hlinked⟩ := hg.exists_selectedFanout (lt_of_node_eq hn)
  rw [hreached] at hreached'
  cases hreached'
  exact ⟨reached, here, beyond, g'', hlinked, hgive, hrest⟩

/-- Links lead on from a node either to a node that it is linked to, or on from one. -/
theorem exists_transGen_cons_iff {reached : List NodeId}
    (hlinked : ∀ q, q ∈ reached ↔ g.Linked id q) :
  (∃ p ∈ id :: ids, TransGen g.Linked p q)
    ↔ (∃ p ∈ reached.reverse ++ ids, TransGen g.Linked p q) ∨ q ∈ reached
  := by
  constructor
  · rintro ⟨p, hp, hpq⟩
    rcases List.mem_cons.mp hp with rfl | hp
    · obtain ⟨r, hr, hrq⟩ := TransGen.head'_iff.mp hpq
      rcases reflTransGen_iff_eq_or_transGen.mp hrq with rfl | hrq
      · right
        apply (hlinked q).mpr hr
      · left
        exact ⟨r, List.mem_append_left ids (List.mem_reverse.mpr ((hlinked r).mpr hr)), hrq⟩
    · left
      exact ⟨p, List.mem_append_right reached.reverse hp, hpq⟩
  · rintro (⟨p, hp, hpq⟩ | hq)
    · rcases List.mem_append.mp hp with hp | hp
      · rw [List.mem_reverse, hlinked] at hp
        exact ⟨id, List.mem_cons_self, hpq.head hp⟩
      · exact ⟨p, List.mem_cons_of_mem id hp, hpq⟩
    · exact ⟨id, List.mem_cons_self, .single ((hlinked q).mp hq)⟩

open Classical in
/-- Forwarding from nodes changes the logical nets of the nodes that links lead to from them, and
nothing else. -/
theorem logicalAt_of_forwardFrom (hg : g.Wired)
    (h : forwardFrom logical more ids g = .ok (count, g')) :
  g'.silent = g.silent ∧ ∀ q, g'.logicalAt q
    = if ∃ p ∈ ids, TransGen g.Linked p q then logical else g.logicalAt q
  := by
  induction more generalizing g ids count with
  | zero =>
    cases ids with
    | nil =>
      cases pure_eq_ok_iff.mp h
      simp
    | cons id ids => cases fault_ne_ok h
  | succ more ih =>
    cases ids with
    | nil =>
      cases pure_eq_ok_iff.mp h
      simp
    | cons id ids =>
      obtain ⟨reached, here, beyond, g'', hlinked, hgive, hrest⟩ := exists_of_forwardFrom_cons hg h
      obtain ⟨hsame, hhere⟩ := logicalAt_of_giveLogical hgive
      obtain ⟨hsame', hbeyond⟩ := ih (hg.of_silent_eq hsame.symm) hrest
      refine ⟨hsame'.trans hsame, ?_⟩
      intro q
      rw [hbeyond q, hhere q, ← ite_or, linked_congr hsame]
      congr 1
      rw [exists_transGen_cons_iff hlinked]

/-- Forwarding from a node that links lead back to does not come to an end. -/
theorem not_transGen_of_forwardFrom (hg : g.Wired)
    (h : forwardFrom logical more ids g = .ok (count, g')) :
  ∀ p ∈ ids, ¬ TransGen g.Linked p p
  := by
  induction more generalizing g ids count with
  | zero =>
    cases ids with
    | nil => simp
    | cons id ids => cases fault_ne_ok h
  | succ more ih =>
    cases ids with
    | nil => simp
    | cons id ids =>
      obtain ⟨reached, here, beyond, g'', hlinked, hgive, hrest⟩ := exists_of_forwardFrom_cons hg h
      obtain ⟨hsame, -⟩ := logicalAt_of_giveLogical hgive
      have hnone := ih (hg.of_silent_eq hsame.symm) hrest
      rw [linked_congr hsame] at hnone
      intro p hp hcycle
      rcases List.mem_cons.mp hp with rfl | hp
      · -- the next node on the cycle is followed later
        obtain ⟨r, hr, hrp⟩ := TransGen.head'_iff.mp hcycle
        apply hnone r (List.mem_append_left ids (List.mem_reverse.mpr ((hlinked r).mpr hr)))
        apply TransGen.tail' hrp hr
      · apply hnone p (List.mem_append_right reached.reverse hp) hcycle

/-! ### Forwarding ends -/

/-- Nodes that have been followed and nodes to follow, all reached from one node. -/
structure Followed (g : RoutingGraph) (start : NodeId) (followed pending : List NodeId) : Prop where
  nodup : (followed ++ pending).Nodup
  known : ∀ q ∈ followed ++ pending, q < g.size
  reached : ∀ q ∈ followed ++ pending, ReflTransGen g.Linked start q
  /-- a node is followed only after the node it is linked to -/
  after : ∀ q ∈ followed ++ pending, q ≠ start → ∃ p ∈ followed, g.Linked p q

/-- At first the node alone is to follow. -/
theorem followed_start (h : id < g.size) : g.Followed id [] [id] := by
  constructor
  case nodup => simp
  case known =>
    intro q hq
    rw [List.mem_singleton.mp hq]
    apply h
  case reached =>
    intro q hq
    rw [List.mem_singleton.mp hq]
  case after =>
    intro q hq hne
    cases hne (List.mem_singleton.mp hq)

/-- What a node is linked to has not been met yet, unless links lead back to the start. -/
theorem Followed.not_mem {start : NodeId} {followed pending : List NodeId}
    (h : g.Followed start followed (id :: pending)) (hacyclic : ¬ TransGen g.Linked start start)
    (hq : g.Linked id q) :
  q ∉ followed ++ id :: pending
  := by
  intro hmem
  by_cases hstart : q = start
  · subst hstart
    apply hacyclic
    apply TransGen.tail' (h.reached id _) hq
    simp
  · obtain ⟨p, hp, hpq⟩ := h.after q hmem hstart
    rw [hpq.unique hq] at hp
    apply List.disjoint_of_nodup_append h.nodup hp List.mem_cons_self

/-- Following a node leaves the nodes it is linked to. -/
theorem Followed.step {start : NodeId} {followed pending reached : List NodeId}
    (h : g.Followed start followed (id :: pending)) (hacyclic : ¬ TransGen g.Linked start start)
    (hnodup : reached.Nodup) (hreached : ∀ q, q ∈ reached ↔ g.Linked id q) :
  g.Followed start (followed ++ [id]) (reached.reverse ++ pending)
  := by
  have hperm : (followed ++ [id] ++ (reached.reverse ++ pending)).Perm
      (reached ++ (followed ++ id :: pending)) := by
    simp only [List.perm_iff_count, List.count_append, List.count_cons, List.count_reverse,
      List.count_nil]
    intro q
    omega
  have hmem : ∀ q ∈ followed ++ [id] ++ (reached.reverse ++ pending),
      g.Linked id q ∨ q ∈ followed ++ id :: pending := by
    intro q hq
    rcases List.mem_append.mp (hperm.mem_iff.mp hq) with hq | hq
    · left
      apply (hreached q).mp hq
    · right
      apply hq
  have hid : ReflTransGen g.Linked start id := by
    apply h.reached
    simp
  constructor
  case nodup =>
    rw [hperm.nodup_iff, List.nodup_append']
    refine ⟨hnodup, h.nodup, ?_⟩
    intro q hq
    apply h.not_mem hacyclic ((hreached q).mp hq)
  case known =>
    intro q hq
    rcases hmem q hq with hq | hq
    · apply hq.lt
    · apply h.known q hq
  case reached =>
    intro q hq
    rcases hmem q hq with hq | hq
    · apply hid.tail hq
    · apply h.reached q hq
  case after =>
    intro q hq hne
    rcases hmem q hq with hq | hq
    · exact ⟨id, by simp, hq⟩
    · obtain ⟨p, hp, hpq⟩ := h.after q hq hne
      exact ⟨p, List.mem_append_left [id] hp, hpq⟩

/-- There are no more nodes to follow than the graph has. -/
theorem Followed.length_le {start : NodeId} {followed pending : List NodeId}
    (h : g.Followed start followed pending) :
  followed.length + pending.length ≤ g.size
  := by
  rw [← List.length_append, ← List.length_range (n := g.size)]
  apply (List.subperm_of_subset h.nodup _).length_le
  intro q hq
  apply List.mem_range.mpr (h.known q hq)

/-- Forwarding comes to an end if links do not lead back to where it started. -/
theorem exists_forwardFrom {start : NodeId} {followed : List NodeId} (hg : g.Wired)
    (h : g.Followed start followed ids) (hacyclic : ¬ TransGen g.Linked start start)
    (hmore : g.size ≤ followed.length + more) :
  ∃ count g', forwardFrom logical more ids g = .ok (count, g')
  := by
  induction more generalizing g ids followed with
  | zero =>
    have := h.length_le
    obtain rfl : ids = [] := by
      apply List.eq_nil_of_length_eq_zero
      omega
    exact ⟨0, g, rfl⟩
  | succ more ih =>
    cases ids with
    | nil => exact ⟨0, g, rfl⟩
    | cons id ids =>
      have hid : id < g.size := by
        apply h.known
        simp
      obtain ⟨reached, hreached, hnodup, hlinked⟩ := hg.exists_selectedFanout hid
      obtain ⟨here, g', hgive⟩ : ∃ here g', g.giveLogical logical reached = .ok (here, g') := by
        apply exists_giveLogical
        intro q hq
        apply ((hlinked q).mp hq).lt
      obtain ⟨hsame, -⟩ := logicalAt_of_giveLogical hgive
      have hnext : g'.Followed start (followed ++ [id]) (reached.reverse ++ ids) := by
        obtain ⟨hnodup', hknown, hreach, hafter⟩ := h.step hacyclic hnodup hlinked
        rw [← linked_congr hsame] at hreach hafter
        rw [← size_eq_of_view_eq hsame] at hknown
        exact ⟨hnodup', hknown, hreach, hafter⟩
      have hrest : ∃ count g'', forwardFrom logical more (reached.reverse ++ ids) g'
          = .ok (count, g'') := by
        apply ih (hg.of_silent_eq hsame.symm) hnext
        · rw [linked_congr hsame]
          apply hacyclic
        · rw [size_eq_of_view_eq hsame, List.length_append, List.length_singleton]
          omega
      obtain ⟨beyond, g'', hrest⟩ := hrest
      use here + beyond, g''
      rw [forwardFrom, hreached, ok_bind]
      exact bind_eq_ok_iff.mpr ⟨_, hgive, bind_eq_ok_iff.mpr ⟨_, hrest, rfl⟩⟩

/-! ### Forwarding from one node -/

open Classical in
/-- Forwarding the logical net of a node gives it to the nodes that links lead to from there. -/
theorem logicalAt_of_forwardLogical (hg : g.Wired) (h : g.forwardLogical id = .ok (count, g')) :
  g'.silent = g.silent ∧ ∀ q, g'.logicalAt q
    = if TransGen g.Linked id q then g.logicalAt id else g.logicalAt q
  := by
  obtain ⟨n, hn, h⟩ := bind_eq_ok_iff.mp h
  rw [logicalAt_of_node hn]
  simpa using logicalAt_of_forwardFrom hg h

/-- The logical net of a node can be forwarded exactly if links do not lead back to it. -/
theorem exists_forwardLogical_iff (hg : g.Wired) (hid : id < g.size) :
  (∃ count g', g.forwardLogical id = .ok (count, g')) ↔ ¬ TransGen g.Linked id id
  := by
  obtain ⟨n, hn⟩ := exists_node_of_lt hid
  rw [forwardLogical, hn, ok_bind]
  constructor
  · rintro ⟨count, g', h⟩
    apply not_transGen_of_forwardFrom hg h id List.mem_cons_self
  · intro hacyclic
    apply exists_forwardFrom hg (followed_start hid) hacyclic
    simp

end RoutingFabric.RoutingGraph
