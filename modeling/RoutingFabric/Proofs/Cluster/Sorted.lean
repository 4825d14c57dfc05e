import Mathlib.Data.Set.Insert
import RoutingFabric.Proofs.Cluster.Order

/-!
# The order of propagation is sorted

In the order of propagation every pin occurs exactly once, and after the pin that it copies from.
A chain is sorted because it is entered from its far end, and chains can be put one after another
because the pins of earlier ones are done. No order is found only where a pin copies from itself.
-/

namespace RoutingFabric.Cluster

variable (b : BlockGraph) (c : Cluster) (pins : Array PinState)

/-- The pins of the list are not done, and each comes after the pin it copies from. -/
inductive InOrder : Set PinId → List PinId → Prop
  | nil {done : Set PinId} : InOrder done []
  | cons {done : Set PinId} {id : PinId} {next : Option PinId} {rest : List PinId}
    (fresh : id ∉ done) (copies : dependency b c pins id = .ok next)
    (after : ∀ q, next = some q → q ∈ done) (later : InOrder (insert id done) rest) :
    InOrder done (id :: rest)

variable {b c pins} {done : Set PinId} {ids rest order found found' : List PinId}
variable {visit visit' : Array Visit}

/-! ### Sorted lists -/

/-- Pins that are done are not in the list. -/
theorem InOrder.not_mem (h : InOrder b c pins done ids) {q : PinId} (hq : q ∈ done) : q ∉ ids := by
  induction h with
  | nil => simp
  | cons fresh copies after later ih =>
    rw [List.mem_cons, not_or]
    constructor
    · rintro rfl
      apply fresh hq
    · apply ih (Set.mem_insert_of_mem _ hq)

/-- A pin of the list occurs once. -/
theorem InOrder.nodup (h : InOrder b c pins done ids) : ids.Nodup := by
  induction h with
  | nil => apply List.nodup_nil
  | cons fresh copies after later ih =>
    apply List.nodup_cons.mpr
    exact ⟨later.not_mem (Set.mem_insert _ _), ih⟩

/-- It is known of each pin of the list which pin it copies from. -/
theorem InOrder.exists_dependency (h : InOrder b c pins done ids) :
  ∀ id ∈ ids, ∃ next, dependency b c pins id = .ok next
  := by
  induction h with
  | nil => simp
  | @cons _ _ next _ fresh copies after later ih =>
    exact List.forall_mem_cons.mpr ⟨⟨next, copies⟩, ih⟩

/-- Pins of the list copy from pins that are done, or in the list themselves. -/
theorem InOrder.mem_of_copies (h : InOrder b c pins done ids) {q : PinId} :
  ∀ id ∈ ids, Copies b c pins id q → q ∈ done ∨ q ∈ ids
  := by
  induction h with
  | nil => simp
  | @cons done id next rest fresh copies after later ih =>
    refine List.forall_mem_cons.mpr ⟨fun hcopies => ?_, fun p hp hcopies => ?_⟩
    · left
      apply after q (Except.ok.inj (copies.symm.trans hcopies))
    · rcases ih p hp hcopies with (rfl | hq) | hq
      · right
        apply List.mem_cons_self
      · left
        apply hq
      · right
        apply List.mem_cons_of_mem _ hq

/-- Sorted lists are the same where pins copy from the same ones. -/
theorem InOrder.congr {c' : Cluster} {pins' : Array PinState}
    (hsame : ∀ id, dependency b c pins id = dependency b c' pins' id)
    (h : InOrder b c pins done ids) :
  InOrder b c' pins' done ids
  := by
  induction h with
  | nil => apply InOrder.nil
  | cons fresh copies after later ih =>
    rw [hsame] at copies
    apply InOrder.cons fresh copies after ih

/-- Pins of a sorted list are grounded if those that are done are. -/
theorem InOrder.grounded (h : InOrder b c pins done ids)
    (hdone : ∀ q ∈ done, Grounded b c pins q) :
  ∀ id ∈ ids, Grounded b c pins id
  := by
  induction h with
  | nil => simp
  | @cons done id next rest fresh copies after later ih =>
    have hid : Grounded b c pins id := by
      apply grounded_of_dependency copies
      intro q hq
      apply hdone q (after q hq)
    refine List.forall_mem_cons.mpr ⟨hid, ih ?_⟩
    rintro q (rfl | hq)
    · apply hid
    · apply hdone q hq

/-- A sorted list goes on with one that is sorted once its pins are done. -/
theorem InOrder.append (h : InOrder b c pins done ids)
    (hrest : InOrder b c pins (done ∪ {q | q ∈ ids}) rest) :
  InOrder b c pins done (ids ++ rest)
  := by
  induction h with
  | nil => simpa using hrest
  | @cons done id next ids fresh copies after later ih =>
    apply InOrder.cons fresh copies after
    apply ih
    have hsame : insert id done ∪ {q | q ∈ ids} = done ∪ {q | q ∈ id :: ids} := by
      ext q
      simp [or_left_comm, or_assoc]
    rw [hsame]
    apply hrest

/-! ### Finding an order -/

/-- The marks say which pins are done, and that those of a list wait for the end of their chain. -/
structure Waiting (visit : Array Visit) (done : Set PinId) (found : List PinId) : Prop where
  done : ∀ q : PinId, visit[q]? = some .done ↔ q ∈ done
  visiting : ∀ q ∈ found, visit[q]? = some .visiting

/-- The list is sorted once the pin is done at which its chain goes on. -/
def SortedAfter (b : BlockGraph) (c : Cluster) (pins : Array PinState) (done : Set PinId)
    (found : List PinId) (next : Option PinId) : Prop :=
  ∀ done', done ⊆ done' → (∀ q, next = some q → q ∈ done') → (∀ q ∈ found, q ∉ done') →
    InOrder b c pins done' found

/-- What comes of following a chain from a pin on. -/
structure ChainFound (b : BlockGraph) (c : Cluster) (pins : Array PinState) (done : Set PinId)
    (visit : Array Visit) (found : List PinId) (start : Option PinId) (visit' : Array Visit)
    (found' : List PinId) : Prop where
  inOrder : InOrder b c pins done found'
  start : ∀ q, start = some q → q ∈ done ∨ q ∈ found'
  subset : found ⊆ found'
  waiting : Waiting visit' done found'
  size : visit'.size = visit.size

/-- Pins that wait are not done. -/
theorem Waiting.not_done (h : Waiting visit done found) : ∀ q ∈ found, q ∉ done := by
  intro q hq
  rw [← h.done q, h.visiting q hq]
  simp

/-- A pin that waits has been visited. -/
theorem Waiting.not_mem (h : Waiting visit done found) {id : PinId}
    (hid : visit[id]? = some .unvisited) :
  id ∉ found
  := by
  intro hmem
  rw [h.visiting id hmem] at hid
  cases hid

/-- A pin that has not been visited comes to wait. -/
theorem Waiting.cons (h : Waiting visit done found) {id : PinId}
    (hid : visit[id]? = some .unvisited) :
  Waiting (visit.modify id fun _ => .visiting) done (id :: found)
  := by
  have hmark : ∀ q : PinId, (visit.modify id fun _ => .visiting)[q]?
      = if q = id then some .visiting else visit[q]? := by
    intro q
    rw [Array.getElem?_modify]
    by_cases hq : q = id
    · simp [hq, hid]
    · simp [hq, Ne.symm hq]
  constructor
  case done =>
    intro q
    rw [hmark q, ← h.done q]
    split
    · rename_i heq
      simp [heq, hid]
    · rfl
  case visiting =>
    intro q hq
    rw [hmark q]
    split
    · rfl
    · rename_i hne
      apply h.visiting q
      apply List.mem_of_ne_of_mem hne hq

/-- A list is sorted after the pin that its first pin copies from, if the rest is after the first.
-/
theorem SortedAfter.cons {id : PinId} {next : Option PinId}
    (h : SortedAfter b c pins done found (some id)) (hnext : dependency b c pins id = .ok next)
    (hid : id ∉ found) :
  SortedAfter b c pins done (id :: found) next
  := by
  intro done' hsub hdone hfresh
  apply InOrder.cons (hfresh id List.mem_cons_self) hnext hdone
  apply h (insert id done')
  · intro q hq
    apply Set.mem_insert_of_mem id (hsub hq)
  · rintro q ⟨⟩
    apply Set.mem_insert
  · intro q hq
    rw [Set.mem_insert_iff, not_or]
    constructor
    · rintro rfl
      apply hid hq
    · apply hfresh q (List.mem_cons_of_mem id hq)

/-- A chain that goes no further than pins that are done leaves things as they are. -/
theorem Waiting.chainFound {start : Option PinId} (h : Waiting visit done found)
    (hsorted : SortedAfter b c pins done found start) (hstart : ∀ q, start = some q → q ∈ done) :
  ChainFound b c pins done visit found start visit found
  where
  inOrder := hsorted done (le_refl done) hstart h.not_done
  start q hq := .inl (hstart q hq)
  subset := List.Subset.refl found
  waiting := h
  size := rfl

/-- Following a chain from a pin on puts its pins in order, provided that what was found before is
sorted after the pin. -/
theorem chainFound_of_chain {n : Nat} {start : Option PinId}
    (h : chain b c pins n visit found start = .ok (visit', found'))
    (hwaiting : Waiting visit done found) (hsorted : SortedAfter b c pins done found start) :
  ChainFound b c pins done visit found start visit' found'
  := by
  induction n generalizing visit found start with
  | zero =>
    cases start with
    | some id => simp [chain] at h
    | none =>
      cases pure_eq_ok_iff.mp h
      apply hwaiting.chainFound hsorted
      simp
  | succ n ih =>
    cases start with
    | none =>
      cases pure_eq_ok_iff.mp h
      apply hwaiting.chainFound hsorted
      simp
    | some id =>
      rw [chain] at h
      obtain ⟨v, hv, h⟩ := bind_eq_ok_iff.mp h
      rw [entry_eq_ok_iff] at hv
      cases v with
      | done =>
        cases pure_eq_ok_iff.mp h
        apply hwaiting.chainFound hsorted
        rintro q ⟨⟩
        apply (hwaiting.done id).mp hv
      | visiting =>
        obtain ⟨name, -, h⟩ := bind_eq_ok_iff.mp h
        cases fail_ne_ok h
      | unvisited =>
        obtain ⟨next, hnext, h⟩ := bind_eq_ok_iff.mp h
        have hrest := ih h (hwaiting.cons hv) (hsorted.cons hnext (hwaiting.not_mem hv))
        constructor
        case inOrder => apply hrest.inOrder
        case start =>
          rintro q ⟨⟩
          right
          apply hrest.subset List.mem_cons_self
        case subset => apply List.Subset.trans (List.subset_cons_self id found) hrest.subset
        case waiting => apply hrest.waiting
        case size => rw [hrest.size, Array.size_modify]

/-- The pins marked as done are done, and others stay as they are. -/
theorem getElem?_markDone (q : PinId) :
  (markDone visit ids)[q]? = if q ∈ ids then (visit[q]?).map fun _ => .done else visit[q]?
  := by
  induction ids generalizing visit with
  | nil => simp [markDone]
  | cons id ids ih =>
    have hcons : markDone visit (id :: ids) = markDone (visit.modify id fun _ => .done) ids := rfl
    rw [hcons, ih, Array.getElem?_modify]
    by_cases hq : q = id
    · subst hq
      simp [Option.map_map, Function.comp_def]
    · simp [hq, Ne.symm hq]

/-- Marking pins as done leaves the number of marks. -/
theorem size_markDone : (markDone visit ids).size = visit.size := by
  induction ids generalizing visit with
  | nil => rfl
  | cons id ids ih =>
    have hcons : markDone visit (id :: ids) = markDone (visit.modify id fun _ => .done) ids := rfl
    rw [hcons, ih, Array.size_modify]

/-- The order of some pins is sorted, and all of these pins are done after it. -/
theorem inOrder_of_orderFrom (h : orderFrom b c pins visit ids = .ok order)
    (hdone : ∀ q : PinId, visit[q]? = some .done ↔ q ∈ done) :
  InOrder b c pins done order ∧ (∀ id ∈ ids, id ∈ done ∨ id ∈ order)
    ∧ ∀ id ∈ order, id < visit.size
  := by
  induction ids generalizing visit order done with
  | nil =>
    cases pure_eq_ok_iff.mp h
    refine ⟨InOrder.nil, ?_, ?_⟩ <;> simp
  | cons start ids ih =>
    rw [orderFrom] at h
    obtain ⟨⟨visit', found⟩, hchain, h⟩ := bind_eq_ok_iff.mp h
    obtain ⟨rest, hrest, h⟩ := bind_eq_ok_iff.mp h
    cases pure_eq_ok_iff.mp h
    have hfound := chainFound_of_chain hchain ⟨hdone, by simp⟩ fun _ _ _ _ => InOrder.nil
    have hmarked : ∀ q : PinId, (markDone visit' found)[q]? = some .done
        ↔ q ∈ done ∪ {q | q ∈ found} := by
      intro q
      rw [getElem?_markDone]
      split
      · rename_i hq
        simp [hfound.waiting.visiting q hq, hq]
      · rename_i hq
        rw [hfound.waiting.done q]
        simp [hq]
    obtain ⟨horder, hids, hlt⟩ := ih hrest hmarked
    refine ⟨hfound.inOrder.append horder, ?_, ?_⟩
    · intro id hid
      rw [List.mem_append]
      rcases List.mem_cons.mp hid with rfl | hid
      · rcases hfound.start id rfl with hid | hid
        · exact .inl hid
        · exact .inr (.inl hid)
      · rcases hids id hid with (hid | hid) | hid
        · exact .inl hid
        · exact .inr (.inl hid)
        · exact .inr (.inr hid)
    · intro id hid
      rcases List.mem_append.mp hid with hid | hid
      · obtain ⟨hlt, -⟩ := Array.getElem?_eq_some_iff.mp (hfound.waiting.visiting id hid)
        rw [← hfound.size]
        apply hlt
      · have hlater := hlt id hid
        rwa [size_markDone, hfound.size] at hlater

/-- The order of propagation holds every pin once, after the pin that it copies from. -/
theorem inOrder_of_propagationOrder (h : propagationOrder b c pins = .ok order) :
  InOrder b c pins ∅ order ∧ ∀ id, id ∈ order ↔ id < pins.size
  := by
  have hnone : ∀ q : PinId, (Array.replicate pins.size Visit.unvisited)[q]? = some .done
      ↔ q ∈ (∅ : Set PinId) := by
    intro q
    simp [Array.getElem?_replicate]
  obtain ⟨horder, hids, hlt⟩ := inOrder_of_orderFrom h hnone
  use horder
  intro id
  constructor
  · intro hid
    simpa using hlt id hid
  · intro hid
    rcases hids id (List.mem_range.mpr hid) with hempty | hid
    · cases hempty
    · apply hid

/-! ### Orders that are not found -/

/-- The pins that wait once a chain is followed are those that it holds. -/
theorem mem_of_chain {n : Nat} {start : Option PinId}
    (h : chain b c pins n visit found start = .ok (visit', found'))
    (hfound : ∀ q : PinId, visit[q]? = some .visiting → q ∈ found) :
  ∀ q : PinId, visit'[q]? = some .visiting → q ∈ found'
  := by
  induction n generalizing visit found start with
  | zero =>
    cases start with
    | some id => simp [chain] at h
    | none =>
      cases pure_eq_ok_iff.mp h
      apply hfound
  | succ n ih =>
    cases start with
    | none =>
      cases pure_eq_ok_iff.mp h
      apply hfound
    | some id =>
      rw [chain] at h
      obtain ⟨v, -, h⟩ := bind_eq_ok_iff.mp h
      cases v with
      | done =>
        cases pure_eq_ok_iff.mp h
        apply hfound
      | visiting =>
        obtain ⟨name, -, h⟩ := bind_eq_ok_iff.mp h
        cases fail_ne_ok h
      | unvisited =>
        obtain ⟨next, -, h⟩ := bind_eq_ok_iff.mp h
        apply ih h
        intro q hq
        rw [Array.getElem?_modify] at hq
        split at hq
        · rename_i heq
          rw [heq]
          apply List.mem_cons_self
        · apply List.mem_cons_of_mem id (hfound q hq)

/-- Once a chain has been followed and its pins are done, no pin waits. -/
theorem ne_visiting_of_chain {n : Nat} {start : Option PinId}
    (h : chain b c pins n visit [] start = .ok (visit', found))
    (hvisit : ∀ q : PinId, visit[q]? ≠ some .visiting) :
  ∀ q : PinId, (markDone visit' found)[q]? ≠ some .visiting
  := by
  intro q hq
  have hfound := mem_of_chain h fun q hq => absurd hq (hvisit q)
  rw [getElem?_markDone] at hq
  split at hq
  · cases hv : visit'[q]? <;> simp [hv] at hq
  · rename_i hne
    apply hne (hfound q hq)

/-- The pins that wait copy in the end from the pin at which a chain goes on. -/
def Leading (b : BlockGraph) (c : Cluster) (pins : Array PinState) (visit : Array Visit)
    (start : Option PinId) : Prop :=
  ∀ q : PinId, visit[q]? = some .visiting →
    ∃ id, start = some id ∧ Relation.TransGen (Copies b c pins) q id

/-- Where no pin waits, a chain can go on anywhere. -/
theorem leading_of_ne (h : ∀ q : PinId, visit[q]? ≠ some .visiting) (start : Option PinId) :
  Leading b c pins visit start
  := by
  intro q hq
  cases h q hq

/-- The pin at which a chain goes on copies from itself if it waits. -/
theorem Leading.cycle {id : PinId} (h : Leading b c pins visit (some id))
    (hid : visit[id]? = some .visiting) :
  Relation.TransGen (Copies b c pins) id id
  := by
  obtain ⟨_, ⟨⟩, hcycle⟩ := h id hid
  apply hcycle

/-- All that wait, and now the pin itself, copy in the end from the one that the pin copies from. -/
theorem Leading.next {id next : PinId} (h : Leading b c pins visit (some id))
    (hcopies : Copies b c pins id next) :
  Leading b c pins (visit.modify id fun _ => .visiting) (some next)
  := by
  intro q hq
  use next, rfl
  rw [Array.getElem?_modify] at hq
  split at hq
  · rename_i heq
    rw [← heq]
    apply Relation.TransGen.single hcopies
  · obtain ⟨_, ⟨⟩, hid⟩ := h q hq
    apply hid.tail hcopies

/-- A chain is stopped at most at a pin that copies from itself, if it follows the pins that
wait. -/
theorem cycle_of_chain {n : Nat} {start : Option PinId} {p : Problem}
    (h : chain b c pins n visit found start = .error (.problem p))
    (hleading : Leading b c pins visit start) :
  ∃ id name, Relation.TransGen (Copies b c pins) id id ∧ b.pinName id = .ok name
    ∧ p = .localDriverCycle c.name name
  := by
  induction n generalizing visit found start with
  | zero =>
    cases start with
    | none => cases pure_ne_error h
    | some id => cases fault_ne_problem h
  | succ n ih =>
    cases start with
    | none => cases pure_ne_error h
    | some id =>
      rw [chain] at h
      rcases bind_eq_error_iff.mp h with h | ⟨v, hv, h⟩
      · cases problemless_entry _ _ p h
      cases v with
      | done => cases pure_ne_error h
      | visiting =>
        rcases bind_eq_error_iff.mp h with h | ⟨name, hname, h⟩
        · cases problemless_pinName _ p h
        · use id, name, hleading.cycle (entry_eq_ok_iff.mp hv), hname
          apply (fail_eq_problem_iff.mp h).symm
      | unvisited =>
        rcases bind_eq_error_iff.mp h with h | ⟨next, hnext, h⟩
        · cases problemless_dependency _ _ p h
        cases next with
        | none => cases n <;> cases pure_ne_error h
        | some next => apply ih h (hleading.next hnext)

/-- Finding the order of a list of pins is stopped at most at a pin that copies from itself. -/
theorem cycle_of_orderFrom {p : Problem}
    (h : orderFrom b c pins visit ids = .error (.problem p))
    (hvisit : ∀ q : PinId, visit[q]? ≠ some .visiting) :
  ∃ id name, Relation.TransGen (Copies b c pins) id id ∧ b.pinName id = .ok name
    ∧ p = .localDriverCycle c.name name
  := by
  induction ids generalizing visit with
  | nil => cases pure_ne_error h
  | cons start ids ih =>
    rw [orderFrom] at h
    rcases bind_eq_error_iff.mp h with h | ⟨⟨visit', found⟩, hchain, h⟩
    · apply cycle_of_chain h (leading_of_ne hvisit _)
    rcases bind_eq_error_iff.mp h with h | ⟨rest, -, h⟩
    · apply ih h (ne_visiting_of_chain hchain hvisit)
    · cases pure_ne_error h

/-- Finding the order of propagation is stopped at most at a pin that copies from itself. -/
theorem cycle_of_propagationOrder {p : Problem}
    (h : propagationOrder b c pins = .error (.problem p)) :
  ∃ id name, Relation.TransGen (Copies b c pins) id id ∧ b.pinName id = .ok name
    ∧ p = .localDriverCycle c.name name
  := by
  apply cycle_of_orderFrom h
  intro q hq
  simp [Array.getElem?_replicate] at hq

end RoutingFabric.Cluster
