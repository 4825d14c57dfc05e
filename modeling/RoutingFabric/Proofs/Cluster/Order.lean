import Mathlib.Logic.Relation
import RoutingFabric.Cluster.Order
import RoutingFabric.Proofs.Cluster.Moves

/-!
# The order of propagation is well founded

Each chain that is entered into the order ends at a pin that copies from none, or from one
that was entered before. When the order is found, going on from a pin to the one it copies from
therefore always comes to an end, and no pin copies from itself.
-/

namespace RoutingFabric.Cluster

variable (b : BlockGraph) (c : Cluster) (pins : Array PinState)

/-- Going on from the pin to the one it copies from comes to an end. -/
def Grounded (id : PinId) : Prop := Acc (fun q p => Copies b c pins p q) id

variable {b c pins}

/-- A pin that copies from another has a state. -/
theorem Copies.lt_size {id q : PinId} (h : Copies b c pins id q) : id < pins.size := by
  obtain ⟨s, hs, -⟩ := bind_eq_ok_iff.mp h
  obtain ⟨hid, -⟩ := Array.getElem?_eq_some_iff.mp (entry_eq_ok_iff.mp hs)
  apply hid

/-! ### Pins that are grounded -/

/-- A pin is grounded if the one it copies from is. -/
theorem grounded_of_dependency {id : PinId} {next : Option PinId}
    (h : dependency b c pins id = .ok next) (hnext : ∀ q, next = some q → Grounded b c pins q) :
  Grounded b c pins id
  := by
  constructor
  intro q hq
  apply hnext
  rw [Copies, h] at hq
  cases hq
  rfl

/-- A grounded pin does not copy from itself. -/
theorem Grounded.acyclic {id : PinId} (h : Grounded b c pins id) :
  ¬ Relation.TransGen (Copies b c pins) id id
  := by
  induction h with
  | intro id _ ih =>
    intro hcycle
    obtain ⟨q, hcopies, hback⟩ := Relation.TransGen.head'_iff.mp hcycle
    apply ih q hcopies
    apply Relation.TransGen.tail' hback hcopies

/-- A chain that is found has grounded pins, if the pins dealt with before are grounded. -/
theorem grounded_of_chain {n : Nat} {visit visit' : Array Visit} {found found' : List PinId}
    {start : Option PinId} (h : chain b c pins n visit found start = .ok (visit', found'))
    (hdone : ∀ q : PinId, visit[q]? = some .done → Grounded b c pins q) :
  (∀ q, start = some q → Grounded b c pins q)
    ∧ (∀ q ∈ found', q ∈ found ∨ Grounded b c pins q)
    ∧ ∀ q : PinId, visit'[q]? = some .done → visit[q]? = some .done
  := by
  induction n generalizing visit found start with
  | zero =>
    cases start with
    | some id => simp [chain] at h
    | none =>
      cases pure_eq_ok_iff.mp h
      simp +contextual
  | succ n ih =>
    cases start with
    | none =>
      cases pure_eq_ok_iff.mp h
      simp +contextual
    | some id =>
      rw [chain] at h
      obtain ⟨v, hv, h⟩ := bind_eq_ok_iff.mp h
      rw [entry_eq_ok_iff] at hv
      cases v with
      | done =>
        cases pure_eq_ok_iff.mp h
        constructor
        · rintro q ⟨⟩
          apply hdone id hv
        · simp +contextual
      | visiting =>
        obtain ⟨name, -, h⟩ := bind_eq_ok_iff.mp h
        cases fail_ne_ok h
      | unvisited =>
        obtain ⟨next, hnext, h⟩ := bind_eq_ok_iff.mp h
        -- marking the pin as waiting makes no pin done
        have hmark : ∀ q : PinId,
            (visit.modify id fun _ => .visiting)[q]? = some .done → visit[q]? = some .done := by
          intro q hq
          rw [Array.getElem?_modify] at hq
          split at hq
          · cases hvq : visit[q]? <;> simp [hvq] at hq
          · apply hq
        obtain ⟨hstart, hfound, hvisit⟩ := ih h fun q hq => hdone q (hmark q hq)
        have hid : Grounded b c pins id := grounded_of_dependency hnext hstart
        constructor
        · rintro q ⟨⟩
          apply hid
        constructor
        · intro q hq
          rcases hfound q hq with hq | hq
          · rcases List.mem_cons.mp hq with rfl | hq
            · right
              apply hid
            · left
              apply hq
          · right
            apply hq
        · intro q hq
          apply hmark q (hvisit q hq)

/-- Only the pins marked as done become so. -/
theorem done_of_markDone {visit : Array Visit} {ids : List PinId} {q : PinId}
    (h : (markDone visit ids)[q]? = some .done) :
  q ∈ ids ∨ visit[q]? = some .done
  := by
  induction ids generalizing visit with
  | nil =>
    right
    apply h
  | cons id ids ih =>
    rcases ih h with hq | hq
    · left
      apply List.mem_cons_of_mem _ hq
    · rw [Array.getElem?_modify] at hq
      split at hq
      · rename_i heq
        left
        rw [heq]
        apply List.mem_cons_self
      · right
        apply hq

/-- All pins that an order is found from are grounded. -/
theorem grounded_of_orderFrom {visit : Array Visit} {ids order : List PinId}
    (h : orderFrom b c pins visit ids = .ok order)
    (hdone : ∀ q : PinId, visit[q]? = some .done → Grounded b c pins q) :
  ∀ id ∈ ids, Grounded b c pins id
  := by
  induction ids generalizing visit order with
  | nil =>
    intro id hid
    cases hid
  | cons start ids ih =>
    rw [orderFrom] at h
    obtain ⟨⟨visit', found⟩, hchain, h⟩ := bind_eq_ok_iff.mp h
    obtain ⟨hstart, hfound, hvisit⟩ := grounded_of_chain hchain hdone
    obtain ⟨rest, hrest, -⟩ := bind_eq_ok_iff.mp h
    intro id hid
    rcases List.mem_cons.mp hid with rfl | hid
    · apply hstart id rfl
    · apply ih hrest _ id hid
      intro q hq
      rcases done_of_markDone hq with hq | hq
      · rcases hfound q hq with hq | hq
        · cases hq
        · apply hq
      · apply hdone q (hvisit q hq)

/-- When the order of propagation is found, all pins are grounded. -/
theorem grounded_of_propagationOrder {order : List PinId}
    (h : propagationOrder b c pins = .ok order) {id : PinId} (hid : id < pins.size) :
  Grounded b c pins id
  := by
  apply grounded_of_orderFrom h
  · intro q hq
    simp [Array.getElem?_replicate] at hq
  · apply List.mem_range.mpr hid

/-- When the order of propagation is found, no pin copies from itself. -/
theorem acyclic_of_propagationOrder {order : List PinId}
    (h : propagationOrder b c pins = .ok order) (id : PinId) :
  ¬ Relation.TransGen (Copies b c pins) id id
  := by
  intro hcycle
  obtain ⟨q, hcopies, -⟩ := Relation.TransGen.head'_iff.mp hcycle
  apply (grounded_of_propagationOrder h hcopies.lt_size).acyclic hcycle

end RoutingFabric.Cluster
