import Mathlib.Data.List.Perm.Subperm
import RoutingFabric.Proofs.Cluster.Selection
import RoutingFabric.Proofs.Cluster.Steady

/-!
# One round in a cluster

A cluster whose drivers have been selected is ordered: nets can be propagated in it, and make it
steady. It is primed if its boundary pins are bound as well. Where no input changes in a round, no
pin does, and the next round leaves the cluster as it is.
-/

namespace RoutingFabric.Cluster

open Relation

/-- Nets can be propagated in the cluster: each of its pins has a place in the order, after the pin
that it copies from. -/
structure Ordered (b : BlockGraph) (c : Cluster) : Prop where
  size : c.locals.pins.size = b.pins.size
  sorted : InOrder b c c.locals.pins ∅ c.locals.order
  complete : ∀ id, id ∈ c.locals.order ↔ id < c.locals.pins.size

/-- Nets can be propagated in the cluster and moved to a graph with a number of nodes. -/
structure Primed (b : BlockGraph) (nodes : Nat) (c : Cluster) : Prop where
  size : c.locals.pins.size = b.pins.size
  sorted : InOrder b c c.locals.pins ∅ c.locals.order
  complete : ∀ id, id ∈ c.locals.order ↔ id < c.locals.pins.size
  bound : ∀ x ∈ c.locals.bindings, x.1 < b.pins.size ∧ x.2 < nodes

/-- The last propagation has changed no pin. -/
def Quiet (c : Cluster) : Prop := ∀ id, c.isChanged id = false

variable {b : BlockGraph} {g g' : RoutingGraph} {t : NetTable} {c c' : Cluster} {id : PinId}
variable {nodes count : Nat}

/-! ### Ordered clusters -/

/-- An ordered cluster stays so when nets change. -/
theorem Ordered.of_silent_eq (h : Ordered b c) (hsame : c.silent = c'.silent) :
  Ordered b c'
  := by
  have horder := congr_of_silent_eq (·.locals.order) (fun _ => rfl) hsame
  constructor
  case size => rw [← size_eq_of_silent_eq hsame, h.size]
  case sorted =>
    rw [← horder]
    apply h.sorted.of_silent_eq hsame
  case complete =>
    rw [← horder, ← size_eq_of_silent_eq hsame]
    apply h.complete

/-- A cluster is ordered once its drivers are selected. -/
theorem ordered_of_selection {pins : Array PinState} {order : List PinId}
    (hpins : selectWithin b g t c (moveBound b) = .ok pins)
    (horder : propagationOrder b c pins = .ok order) :
  Ordered b { c with locals := { c.locals with pins, order } }
  := by
  obtain ⟨hsorted, hcomplete⟩ := inOrder_of_propagationOrder horder
  constructor
  case size => apply (sound_of_selection hpins horder).total.1
  case sorted =>
    apply hsorted.congr
    intro id
    rfl
  case complete => apply hcomplete

/-- A primed cluster is ordered. -/
theorem Primed.ordered (h : Primed b nodes c) : Ordered b c := ⟨h.size, h.sorted, h.complete⟩

/-- A primed cluster stays so when nets change. -/
theorem Primed.of_silent_eq (h : Primed b nodes c) (hsame : c.silent = c'.silent) :
  Primed b nodes c'
  := by
  have hbindings := congr_of_silent_eq (·.locals.bindings) (fun _ => rfl) hsame
  obtain ⟨hsize, hsorted, hcomplete⟩ := h.ordered.of_silent_eq hsame
  use hsize, hsorted, hcomplete
  rw [← hbindings]
  apply h.bound

/-- It is known of each pin of an ordered cluster which pin it copies from. -/
theorem Ordered.exists_dependency (h : Ordered b c) :
  ∀ id < c.locals.pins.size, ∃ next, dependency b c c.locals.pins id = .ok next
  := by
  intro id hid
  apply h.sorted.exists_dependency id ((h.complete id).mpr hid)

/-- A pin of an ordered cluster copies from one of its pins. -/
theorem Ordered.lt_of_copies (h : Ordered b c) {q : PinId} (hq : Copies b c c.locals.pins id q) :
  q < c.locals.pins.size
  := by
  rcases h.sorted.mem_of_copies id ((h.complete id).mpr hq.lt_size) hq with hnone | hmem
  · cases hnone
  · apply (h.complete q).mp hmem

/-- All pins of an ordered cluster are grounded. -/
theorem Ordered.grounded (h : Ordered b c) (id : PinId) : Grounded b c c.locals.pins id := by
  by_cases hid : id < c.locals.pins.size
  · apply h.sorted.grounded _ id ((h.complete id).mpr hid)
    intro q hq
    cases hq
  · constructor
    intro q hq
    obtain ⟨s, hs, -⟩ := bind_eq_ok_iff.mp hq
    cases hid (Array.getElem?_eq_some_iff.mp (entry_eq_ok_iff.mp hs)).1

/-! ### Propagating nets -/

/-- Propagating nets in an ordered cluster lets all pins take their nets. -/
theorem Ordered.propagated (h : Ordered b c)
    (hok : propagateNets b g t c = .ok (count, c')) :
  Propagated b g t c c' c.locals.order count
  := propagated_of_propagatePins h.sorted hok

/-- Propagating nets makes an ordered cluster steady. -/
theorem Ordered.steady (h : Ordered b c) (hok : propagateNets b g t c = .ok (count, c')) :
  Steady b g t c'
  := by
  apply (h.propagated hok).steady
  intro id hid
  apply (h.complete id).mpr hid

/-- Nothing is counted exactly if no pin is changed. -/
theorem Ordered.eq_zero_iff (h : Ordered b c) (hok : propagateNets b g t c = .ok (count, c')) :
  count = 0 ↔ c'.Quiet
  := by
  have hall := h.propagated hok
  rw [hall.counted, List.countP_eq_zero]
  constructor
  · intro hnone id
    by_cases hid : id < c.locals.pins.size
    · simpa using hnone id ((h.complete id).mpr hid)
    · rw [size_eq_of_silent_eq hall.same.symm] at hid
      rw [isChanged, Array.getElem?_eq_none (Nat.le_of_not_lt hid)]
      rfl
  · intro hquiet id _
    simp [hquiet id]

/-- No pin stands twice in the order of propagation. -/
theorem Ordered.length_order_le (h : Ordered b c) :
  c.locals.order.length ≤ c.locals.pins.size
  := by
  have hpins : c.locals.order ⊆ List.range c.locals.pins.size := by
    intro id hid
    apply List.mem_range.mpr ((h.complete id).mp hid)
  calc
    c.locals.order.length ≤ (List.range c.locals.pins.size).length :=
      (h.sorted.nodup.subperm hpins).length_le
    _ = c.locals.pins.size := List.length_range

/-- No pin is counted twice. -/
theorem Ordered.count_le (h : Ordered b c) (hok : propagateNets b g t c = .ok (count, c')) :
  count ≤ c.locals.pins.size
  := by
  rw [(h.propagated hok).counted]
  apply Nat.le_trans List.countP_le_length h.length_order_le

/-- The pins that are changed are the inputs whose logical net is another one than before. -/
theorem Ordered.isChanged_iff (h : Ordered b c)
    (hok : propagateNets b g t c = .ok (count, c')) :
  c'.isChanged id ↔ (∃ p, b.pin id = .ok p ∧ p.kind.isInput) ∧ c.logicalAt id ≠ c'.logicalAt id
  := by
  have hall := h.propagated hok
  by_cases hid : id < c.locals.pins.size
  · obtain ⟨s, s', p, hold, hnew, hp, -, hchanged⟩ := hall.taken id ((h.complete id).mpr hid)
    simp [isChanged, logicalAt, hold, hnew, hp, hchanged]
  · have hid' := hid
    rw [size_eq_of_silent_eq hall.same.symm] at hid'
    rw [isChanged, logicalAt, logicalAt, Array.getElem?_eq_none (Nat.le_of_not_lt hid),
      Array.getElem?_eq_none (Nat.le_of_not_lt hid')]
    simp

/-- Nets can be propagated in a steady ordered cluster, whatever the logical nets of nodes. -/
theorem Ordered.exists_propagateNets (h : Ordered b c) (hsteady : Steady b g t c)
    (hgraph : g.silent = g'.silent) :
  ∃ count c', propagateNets b g' t c = .ok (count, c')
  := by
  apply exists_propagatePins h.sorted
  intro id hid
  rw [h.complete id] at hid
  obtain ⟨next, hnext⟩ := h.exists_dependency id hid
  refine ⟨?_, ?_, ?_⟩
  · exact exists_incoming_congr rfl hgraph hnext
      ⟨_, hsteady id _ (Array.getElem?_eq_getElem hid)⟩
  · rw [h.size] at hid
    exact ⟨_, entry_of_lt hid⟩
  · exact ⟨_, Array.getElem?_eq_getElem hid⟩

/-- Where no pin is changed, propagating nets once more leaves an ordered cluster as it is. -/
theorem Ordered.propagateNets_of_quiet (h : Ordered b c) (hsteady : Steady b g t c)
    (hquiet : c.Quiet) :
  propagateNets b g t c = .ok (0, c)
  := by
  apply propagatePins_of_steady hsteady
  · intro id s hs
    have := hquiet id
    rw [isChanged, hs] at this
    apply this
  · intro id hid
    rw [h.complete id] at hid
    constructor
    · rw [h.size] at hid
      exact ⟨_, entry_of_lt hid⟩
    · exact ⟨_, Array.getElem?_eq_getElem hid⟩

/-- An input of the cluster is an input of its block. -/
theorem exists_input_of_isClusterInput (h : b.isClusterInput id = .ok true) :
  ∃ p, b.pin id = .ok p ∧ p.kind.isInput
  := by
  obtain ⟨p, hp, h⟩ := bind_eq_ok_iff.mp h
  rw [pure_eq_ok_iff, Bool.and_eq_true] at h
  exact ⟨p, hp, h.2⟩

/-- Where no input changes in a round, no pin carries another logical net than before. -/
theorem Ordered.logicalAt_eq_of_quiet (h : Ordered b c) (hsteady : Steady b g t c)
    (hgraph : g.silent = g'.silent) (hok : propagateNets b g' t c = .ok (count, c'))
    (hquiet : c'.Quiet) (id : PinId) :
  c'.logicalAt id = c.logicalAt id
  := by
  by_contra hne
  have hall := h.propagated hok
  obtain ⟨e, node, -, -, hinput, -, -, hchanges⟩ := hsteady.exists_end (h.steady hok)
    hall.same.symm hgraph h.exists_dependency (h.grounded id) (Ne.symm hne)
  have hchanged := (h.isChanged_iff hok).mpr ⟨exists_input_of_isClusterInput hinput, hchanges⟩
  rw [hquiet e] at hchanged
  cases hchanged

/-- A boundary input without a driver takes the nets of its node, if that has a net. -/
theorem Steady.eq_of_isClusterInput {s : PinState} {node : NodeId} {n : RoutingGraph.Node}
    (h : Steady b g t c) (hs : c.locals.pins[id]? = some s) (hfree : s.selected = none)
    (hinput : b.isClusterInput id = .ok true) (hnode : c.locals.nodeOf id = some node)
    (hn : g.node node = .ok n) (hnet : n.net.isSome) :
  s.net = n.net ∧ s.logical = n.logical
  := by
  have hin := h id s hs
  rw [incoming, Local.pin, entry_eq_ok_iff.mpr hs, ok_bind] at hin
  simp only [hfree, hinput, ok_bind, if_true, hnode, hn, hnet, pure_eq_ok_iff,
    Prod.mk.injEq] at hin
  exact ⟨hin.1.symm, hin.2.symm⟩

end RoutingFabric.Cluster
