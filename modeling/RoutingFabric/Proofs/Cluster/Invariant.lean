import RoutingFabric.Proofs.Cluster.Passes
import RoutingFabric.Proofs.Cluster.Settled

/-!
# The walk keeps its invariant

Each move keeps the invariant: a pin is put on the stack, passes an edge, or leaves the stack
settled. All states that the walk passes therefore have it, and once the walk is over every pin
is settled.
-/

namespace RoutingFabric.Cluster

variable {b : BlockGraph} {g : RoutingGraph} {t : NetTable} {c : Cluster}

/-! ### Moves that leave pins as they are -/

/-- Putting a pin on the stack, spelled out. -/
theorem push_eq_ok_iff {w w' : Walk} {id : PinId} :
  w.push b c id = .ok w' ↔ ∃ inputs, id < w.visit.size ∧ inputsOf b c id = .ok inputs
    ∧ w' = { w with
        visit := w.visit.modify id fun _ => .visiting
        stack := { pin := id, inputs } :: w.stack }
  := by
  simp only [Walk.push, bind_eq_ok_iff, alter_eq_ok_iff, pure_eq_ok_iff]
  constructor
  · rintro ⟨visit, ⟨hid, rfl⟩, inputs, hinputs, rfl⟩
    use inputs, hid, hinputs
  · rintro ⟨inputs, hid, hinputs, rfl⟩
    exact ⟨_, ⟨hid, rfl⟩, inputs, hinputs, rfl⟩

/-- A walk goes on when it puts a pin on the stack. -/
theorem extends_of_push {w w' : Walk} {id : PinId} (hid : w.visit[id]? = some .unvisited)
    (h : w.push b c id = .ok w') :
  w.Extends w'
  := by
  obtain ⟨inputs, -, -, rfl⟩ := push_eq_ok_iff.mp h
  constructor
  · intro q hq
    simp only [Array.getElem?_modify, hq]
    split
    · simp_all
    · rfl
  · intro q hq
    rfl
  · intro q hq
    rfl
  · rintro q ⟨v, hv, hne⟩
    by_cases hq : id = q
    · use .visiting
      simp_all
    · use v
      simp [Array.getElem?_modify, hq, hv, hne]

/-- The pin that is put on the stack waits, and the others are left alone. -/
theorem visit_of_push {w w' : Walk} {id : PinId} (hid : w.visit[id]? = some .unvisited)
    (h : w.push b c id = .ok w') (q : PinId) :
  w'.visit[q]? = if q = id then some .visiting else w.visit[q]?
  := by
  obtain ⟨inputs, -, -, rfl⟩ := push_eq_ok_iff.mp h
  rcases eq_or_ne q id with rfl | hq
  · simp [Array.getElem?_modify, hid]
  · simp [Array.getElem?_modify, Ne.symm hq, hq]

/-- Putting a pin on the stack keeps the invariant. -/
theorem Walk.Inv.push {w w' : Walk} (hw : w.Inv b g c) {id : PinId}
    (hid : w.visit[id]? = some .unvisited) (h : w.push b c id = .ok w') :
  w'.Inv b g c
  := by
  have hextends := extends_of_push hid h
  have hvisit := visit_of_push hid h
  obtain ⟨inputs, hlt, hinputs, rfl⟩ := push_eq_ok_iff.mp h
  constructor
  case visits =>
    rw [Array.size_modify, hw.visits]
  case states => apply hw.states
  case nets => apply hw.nets
  case waiting =>
    intro q
    rw [hvisit, List.exists_mem_cons_iff]
    by_cases hq : q = id
    · simp [hq]
    · rw [if_neg hq, hw.waiting q]
      simp [Ne.symm hq]
  case nodup =>
    rw [List.map_cons, List.nodup_cons]
    constructor
    · intro hmem
      obtain ⟨f, hf, hpin⟩ := List.mem_map.mp hmem
      have := (hw.waiting id).mpr ⟨f, hf, hpin⟩
      simp_all
    · apply hw.nodup
  case wired =>
    intro f hf
    rcases List.mem_cons.mp hf with rfl | hf
    · apply hinputs
    · apply hw.wired f hf
  case blank =>
    intro q hq hdone
    apply hw.blank q hq
    intro hdone'
    apply hdone
    apply hextends.done q hdone'
  case settled =>
    intro q hdone
    have hdone' : w.visit[q]? = some .done := by
      rw [hvisit] at hdone
      split at hdone
      · cases hdone
      · apply hdone
    apply (hw.settled q hdone').extend hextends hdone'

/-- A walk goes on when it passes an edge. -/
theorem extends_of_skip {w w' : Walk} {f : Frame} {below : List Frame}
    (h : w.apply b c f below .skip = .ok w') :
  w.Extends w'
  := by
  obtain rfl := pure_eq_ok_iff.mp h
  constructor
  · intro q hq
    apply hq
  · intro q hq
    rfl
  · intro q hq
    rfl
  · intro q hq
    apply hq

/-- Passing an edge keeps the invariant. -/
theorem Walk.Inv.skip {w w' : Walk} (hw : w.Inv b g c) {f : Frame} {below : List Frame}
    (hstack : w.stack = f :: below) (h : w.apply b c f below .skip = .ok w') :
  w'.Inv b g c
  := by
  have hextends := extends_of_skip h
  obtain rfl := pure_eq_ok_iff.mp h
  constructor
  case visits => apply hw.visits
  case states => apply hw.states
  case nets => apply hw.nets
  case waiting =>
    intro q
    rw [hw.waiting q, hstack, List.exists_mem_cons_iff, List.exists_mem_cons_iff]
  case nodup =>
    have := hw.nodup
    rw [hstack] at this
    apply this
  case wired =>
    intro f' hf'
    rcases List.mem_cons.mp hf' with rfl | hf'
    · apply hw.wired f
      rw [hstack]
      apply List.mem_cons_self
    · apply hw.wired f'
      rw [hstack]
      apply List.mem_cons_of_mem _ hf'
  case blank => apply hw.blank
  case settled =>
    intro q hdone
    apply (hw.settled q hdone).extend hextends hdone

/-! ### Moves that finish a pin -/

/-- Finishing a pin changes what is known of it, and takes it off the stack. -/
theorem eq_of_finish {w w' : Walk} {f : Frame} {below : List Frame}
    {selected : Option LocalDriver} {resolved : Option NetId} {isOpen : Bool}
    (h : w.apply b c f below (.finish selected resolved isOpen) = .ok w') :
  w' = {
    visit := w.visit.modify f.pin fun _ => .done
    resolved := w.resolved.modify f.pin fun _ => resolved
    pins := w.pins.modify f.pin fun s => { s with selected, isOpen }
    stack := below }
  := by
  simp only [Walk.apply, bind_eq_ok_iff, alter_eq_ok_iff, pure_eq_ok_iff] at h
  obtain ⟨_, ⟨-, rfl⟩, _, ⟨-, rfl⟩, _, ⟨-, rfl⟩, rfl⟩ := h
  rfl

/-- Finishing a pin marks it as done. -/
theorem visit_of_finish {w w' : Walk} {f : Frame} {below : List Frame}
    {selected : Option LocalDriver} {resolved : Option NetId} {isOpen : Bool}
    (hpin : w.visit[f.pin]? = some .visiting)
    (h : w.apply b c f below (.finish selected resolved isOpen) = .ok w') (q : PinId) :
  w'.visit[q]? = if q = f.pin then some .done else w.visit[q]?
  := by
  obtain rfl := eq_of_finish h
  rcases eq_or_ne q f.pin with rfl | hq
  · simp [Array.getElem?_modify, hpin]
  · simp [Array.getElem?_modify, Ne.symm hq, hq]

/-- A walk goes on when it finishes a pin. -/
theorem extends_of_finish {w w' : Walk} {f : Frame} {below : List Frame}
    {selected : Option LocalDriver} {resolved : Option NetId} {isOpen : Bool}
    (hpin : w.visit[f.pin]? = some .visiting)
    (h : w.apply b c f below (.finish selected resolved isOpen) = .ok w') :
  w.Extends w'
  := by
  have hvisit := visit_of_finish hpin h
  obtain rfl := eq_of_finish h
  constructor
  · intro q hq
    rw [hvisit]
    split
    · rfl
    · apply hq
  · intro q hq
    have hne : f.pin ≠ q := by
      rintro rfl
      simp_all
    simp [Array.getElem?_modify, hne]
  · intro q hq
    have hne : f.pin ≠ q := by
      rintro rfl
      simp_all
    simp [Array.getElem?_modify, hne]
  · rintro q ⟨v, hv, hne⟩
    by_cases hq : q = f.pin
    · use .done
      rw [hvisit, if_pos hq]
      simp
    · use v
      rw [hvisit, if_neg hq]
      exact ⟨hv, hne⟩

/-- Finishing a pin keeps the invariant, if it leaves the pin settled. -/
theorem Walk.Inv.finish {w w' : Walk} (hw : w.Inv b g c) {f : Frame} {below : List Frame}
    {selected : Option LocalDriver} {resolved : Option NetId} {isOpen : Bool}
    (hstack : w.stack = f :: below)
    (h : w.apply b c f below (.finish selected resolved isOpen) = .ok w')
    (hsettled : Settled b g c w' f.pin) :
  w'.Inv b g c
  := by
  have hpin : w.visit[f.pin]? = some .visiting := by
    rw [hw.waiting, hstack]
    use f, List.mem_cons_self
  have hextends := extends_of_finish hpin h
  have hvisit := visit_of_finish hpin h
  have hnodup := hw.nodup
  rw [hstack, List.map_cons, List.nodup_cons] at hnodup
  obtain rfl := eq_of_finish h
  constructor
  case visits => rw [Array.size_modify, hw.visits]
  case states => rw [Array.size_modify, hw.states]
  case nets => rw [Array.size_modify, hw.nets]
  case waiting =>
    intro q
    rw [hvisit]
    by_cases hq : q = f.pin
    · rw [if_pos hq]
      constructor
      · intro h
        cases h
      · rintro ⟨f', hf', rfl⟩
        cases hnodup.1 (hq ▸ List.mem_map_of_mem hf')
    · rw [if_neg hq, hw.waiting, hstack, List.exists_mem_cons_iff]
      simp [Ne.symm hq]
  case nodup => apply hnodup.2
  case wired =>
    intro f' hf'
    apply hw.wired f'
    rw [hstack]
    apply List.mem_cons_of_mem _ hf'
  case blank =>
    intro q hq hdone
    rw [hvisit] at hdone
    have hne : f.pin ≠ q := by
      rintro rfl
      simp at hdone
    rw [if_neg (Ne.symm hne)] at hdone
    simp only [Array.getElem?_modify, if_neg hne]
    apply hw.blank q hq hdone
  case settled =>
    intro q hdone
    rcases eq_or_ne q f.pin with rfl | hq
    · apply hsettled
    · rw [hvisit, if_neg hq] at hdone
      apply (hw.settled q hdone).extend hextends hdone

/-- What is left of a pin that is finished. -/
theorem Walk.Inv.state_of_finish {w w' : Walk} (hw : w.Inv b g c) {f : Frame} {below : List Frame}
    {selected : Option LocalDriver} {resolved : Option NetId} {isOpen : Bool}
    (hpin : w.visit[f.pin]? = some .visiting)
    (h : w.apply b c f below (.finish selected resolved isOpen) = .ok w') :
  w'.pins[f.pin]? = some { selected, isOpen } ∧ w'.resolved[f.pin]? = some resolved
  := by
  obtain ⟨hlt, -⟩ := Array.getElem?_eq_some_iff.mp hpin
  rw [hw.visits] at hlt
  have hblank := hw.blank f.pin hlt (by simp [hpin])
  rw [← hw.nets] at hlt
  have hnet := Array.getElem?_eq_getElem hlt
  obtain rfl := eq_of_finish h
  constructor
  · simp only [Array.getElem?_modify, hblank, ↓reduceIte, Option.map_some]
  · simp only [Array.getElem?_modify, hnet, ↓reduceIte, Option.map_some]

/-- The net that a waiting pin is found to have is the one it carries. -/
theorem carries_of_pendingNet {id : PinId} {net : Option NetId}
    (h : pendingNet b g c id = .ok (some net)) :
  Carries b g c id net
  := by
  rw [pendingNet] at h
  obtain ⟨known, hknown, h⟩ := bind_eq_ok_iff.mp h
  cases known with
  | some own =>
    cases pure_eq_ok_iff.mp h
    apply Carries.known hknown
  | none =>
    obtain ⟨edges, hedges, h⟩ := bind_eq_ok_iff.mp h
    cases edges with
    | cons e rest => cases pure_eq_ok_iff.mp h
    | nil =>
      cases pure_eq_ok_iff.mp h
      apply Carries.idle hknown
      rw [inputsOf, hedges]
      rfl

/-- If no pin that waits is met from a pin on, all that are met are done. -/
theorem Walk.Inv.done_of_copies {w : Walk} (hw : w.Inv b g c) {id q : PinId}
    (hid : w.visit[id]? = some .done) (hpending : ∀ links, ¬ PendingAfter b c w links id)
    (hq : Relation.ReflTransGen (Copies b c w.pins) id q) :
  w.visit[q]? = some .done
  := by
  induction hq using Relation.ReflTransGen.head_induction_on with
  | refl => apply hid
  | @head id next hcopies hrest ih =>
    have hnext : ∀ links, ¬ PendingAfter b c w links next := by
      intro links hlinks
      apply hpending (links + 1)
      apply PendingAfter.beyond hid (by simp) hcopies hlinks
    apply ih _ hnext
    rcases ((hw.settled id hid).dealt_of_copies hcopies).visiting_or_done with hvisiting | hdone
    · cases hnext 0 (PendingAfter.here hvisiting)
    · apply hdone

/-- A pin that is finished is settled. -/
theorem Walk.Inv.settled_of_finish {w w' : Walk} (hw : w.Inv b g c) {f : Frame}
    {below : List Frame} {selected : Option LocalDriver} {resolved : Option NetId} {isOpen : Bool}
    (hstack : w.stack = f :: below) (hmoves : f.Moves b g c w (.finish selected resolved isOpen))
    (h : w.apply b c f below (.finish selected resolved isOpen) = .ok w') :
  Settled b g c w' f.pin
  := by
  have hf : f ∈ w.stack := by
    rw [hstack]
    apply List.mem_cons_self
  have hpin : w.visit[f.pin]? = some .visiting := (hw.waiting f.pin).mpr ⟨f, hf, rfl⟩
  have hextends := extends_of_finish hpin h
  have hwired := hw.wired f hf
  obtain ⟨hstate, hresolved⟩ := hw.state_of_finish hpin h
  cases hmoves with
  | idle known idle forwards visit undriven =>
    rw [idle] at hwired
    apply Settled.idle hwired known forwards _ undriven hstate hresolved
    intro q hq
    apply hextends.dealt q (visit q hq)
  | take known next visit resolved pending =>
    have hnone := dependsOnPending_eq_false (hw.visits.trans hw.states.symm) pending
    apply Settled.fed hwired known next _ _ hstate hresolved
    · apply (hw.settled _ visit).carries resolved
    · apply hextends.done_of_copies
      intro q hq
      apply hw.done_of_copies visit hnone hq
  | freeWaiting known inputs visit pending =>
    rw [Frame.driver, inputs, List.length_cons] at hstate
    rw [inputs] at hwired
    apply Settled.free hwired known _ _ hstate hresolved
    · apply hextends.dealt
      apply Walk.dealt_of_visiting visit
    · apply carries_of_pendingNet pending
  | freeDone known inputs visit resolved =>
    rw [Frame.driver, inputs, List.length_cons] at hstate
    rw [inputs] at hwired
    apply Settled.free hwired known _ _ hstate hresolved
    · apply hextends.dealt
      apply Walk.dealt_of_done visit
    · apply (hw.settled _ visit).carries resolved

/-! ### The walk -/

/-- The pin that a move descends to has not been dealt with. -/
theorem Frame.Moves.unvisited_of_descend {w : Walk} {f : Frame} {id : PinId}
    (h : f.Moves b g c w (.descend id)) :
  w.visit[id]? = some .unvisited
  := by
  cases h <;> assumption

/-- The walk goes on with each move. -/
theorem Walk.Inv.extends {w w' : Walk} (hw : w.Inv b g c) {f : Frame} {below : List Frame}
    {m : Move} (hstack : w.stack = f :: below) (hmoves : f.Moves b g c w m)
    (h : w.apply b c f below m = .ok w') :
  w.Extends w'
  := by
  cases m with
  | descend id => apply extends_of_push hmoves.unvisited_of_descend h
  | skip => apply extends_of_skip h
  | finish selected resolved isOpen =>
    apply extends_of_finish _ h
    rw [hw.waiting, hstack]
    use f, List.mem_cons_self

/-- Each move keeps the invariant. -/
theorem Walk.Inv.apply {w w' : Walk} (hw : w.Inv b g c) {f : Frame} {below : List Frame}
    {m : Move} (hstack : w.stack = f :: below) (hmoves : f.Moves b g c w m)
    (h : w.apply b c f below m = .ok w') :
  w'.Inv b g c
  := by
  cases m with
  | descend id => apply hw.push hmoves.unvisited_of_descend h
  | skip => apply hw.skip hstack h
  | finish selected resolved isOpen =>
    apply hw.finish hstack h
    apply hw.settled_of_finish hstack hmoves h

/-- The invariant holds before the walk. -/
theorem Walk.Inv.start : (Walk.start b.pins.size).Inv b g c := by
  constructor
  case visits => apply Array.size_replicate
  case states => apply Array.size_replicate
  case nets => apply Array.size_replicate
  case waiting =>
    intro id
    simp [Walk.start, Array.getElem?_replicate]
  case nodup => apply List.nodup_nil
  case wired =>
    intro f hf
    cases hf
  case blank =>
    intro id hid hdone
    simp [Walk.start, hid]
  case settled =>
    intro id hdone
    simp [Walk.start, Array.getElem?_replicate] at hdone

/-- All states that the walk passes have the invariant. -/
theorem Passes.inv {next moves : Nat} {w : Walk} (h : Passes b g t c next moves w) :
  w.Inv b g c
  := by
  induction h with
  | start => apply Walk.Inv.start
  | pass before stack bound visit ne ih => apply ih
  | enter before stack bound visit push ih => apply ih.push visit push
  | move before stack move apply ih =>
    apply ih.apply stack (Frame.moves_of_move move) apply

/-- The pins before the next one to start from have been dealt with. -/
theorem Passes.dealt {next moves : Nat} {w : Walk} (h : Passes b g t c next moves w) :
  ∀ id < next, w.Dealt id
  := by
  induction h with
  | start =>
    intro id hid
    omega
  | @pass next moves w v before stack bound visit ne ih =>
    intro id hid
    rcases Nat.lt_succ_iff_lt_or_eq.mp hid with hlt | rfl
    · apply ih id hlt
    · use v
  | @enter next moves w w' before stack bound visit push ih =>
    intro id hid
    rcases Nat.lt_succ_iff_lt_or_eq.mp hid with hlt | rfl
    · apply (extends_of_push visit push).dealt
      apply ih id hlt
    · use .visiting
      rw [visit_of_push visit push]
      simp
  | @move next moves w w' f below m before stack move apply ih =>
    intro id hid
    have hextends := before.inv.extends stack (Frame.moves_of_move move) apply
    apply hextends.dealt id (ih id hid)

/-- Once the walk is over, every pin is done. -/
theorem Passes.done {moves : Nat} {w : Walk} (h : Passes b g t c b.pins.size moves w)
    (hstack : w.stack = []) {id : PinId} (hid : id < b.pins.size) :
  w.visit[id]? = some .done
  := by
  rcases (h.dealt id hid).visiting_or_done with hvisiting | hdone
  · obtain ⟨f, hf, -⟩ := (h.inv.waiting id).mp hvisiting
    rw [hstack] at hf
    cases hf
  · apply hdone

/-- Once the walk is over, every pin is settled. -/
theorem Passes.settled {moves : Nat} {w : Walk} (h : Passes b g t c b.pins.size moves w)
    (hstack : w.stack = []) {id : PinId} (hid : id < b.pins.size) :
  Settled b g c w id
  := by
  apply h.inv.settled
  apply h.done hstack hid

end RoutingFabric.Cluster
