import Mathlib.Data.List.Chain
import RoutingFabric.Proofs.Cluster.Invariant

/-!
# The trail of the walk

Each pin on the stack may take its net from the pin above it. An edge that a pin with a known net
has passed does not bring the net, or comes from a pin that has to take its net from one on the
stack.
-/

namespace RoutingFabric.Cluster

variable (b : BlockGraph) (g : RoutingGraph) (t : NetTable) (c : Cluster)

/-- The pin has to take its net from one of those that wait. -/
def Held (waiting : List PinId) (id : PinId) : Prop :=
  ∃ q ∈ waiting, Relation.ReflTransGen (Forced b g c) id q

/-- The edge comes from a pin that has been dealt with, and does not bring the net unless the pin
has to take it from one of those that wait. -/
structure Barren (w : Walk) (waiting : List PinId) (net : NetId) (i : Input) : Prop where
  dealt : w.Dealt i.source
  held : Carries b g c i.source (some net) → Held b g c waiting i.source

/-- On a stack, pins with known nets have passed barren edges only. -/
def Passed (w : Walk) : List Frame → Prop
  | [] => True
  | f :: below =>
    (∀ net, knownNet b g c f.pin = .ok (some net) →
      ∀ i ∈ f.inputs.take f.cursor, Barren b g c w (f.pin :: below.map (·.pin)) net i)
      ∧ Passed w below

variable {b g t c}

/-! ### Pins that wait, by links that are forced -/

/-- No pin that waits is met from where all pins are done. -/
theorem not_pendingAfter_of_done {w : Walk} {id : PinId}
    (h : ∀ q, Relation.ReflTransGen (Copies b c w.pins) id q → w.visit[q]? = some .done)
    {links : Nat} :
  ¬ PendingAfter b c w links id
  := by
  intro hpending
  induction hpending with
  | here visit =>
    rw [h _ Relation.ReflTransGen.refl] at visit
    cases visit
  | beyond visit ne copies rest ih =>
    apply ih
    intro q hq
    apply h q (Relation.ReflTransGen.head copies hq)

/-- A pin with a choice copies from the source of an edge that brings its net, and meets no pin
that is not done from there on. -/
theorem Settled.done_of_chooses {w : Walk} {id q : PinId} (h : Settled b g c w id)
    (hid : Chooses b g c id) (hq : Copies b c w.pins id q) :
  ∀ p, Relation.ReflTransGen (Copies b c w.pins) q p → w.visit[p]? = some .done
  := by
  obtain ⟨net, inputs, hknown, hwired, hne⟩ := hid
  cases h with
  | idle wired => simp_all
  | free _ known => simp_all
  | fed _ _ _ _ done pin =>
    rw [(copies_of_selected pin rfl q).mp hq]
    apply done

/-- A settled pin copies what it has to, or has a choice. -/
theorem Settled.forced_or_chooses {w : Walk} {id q : PinId} (h : Settled b g c w id)
    (hq : Copies b c w.pins id q) :
  Forced b g c id q ∨ Chooses b g c id
  := by
  cases h with
  | idle wired _ forwards _ _ pin =>
    left
    rw [copies_of_idle pin rfl forwards] at hq
    rw [hq] at forwards
    apply Forced.forward wired forwards
  | free wired known _ _ pin =>
    left
    rw [(copies_of_selected pin rfl q).mp hq]
    apply Forced.first known wired
  | @fed inputs path i net wired known next =>
    right
    use net, inputs, known, wired
    rintro rfl
    cases next

/-- A pin that is done copies what it has to, unless it copies from pins that are all done. -/
theorem Settled.forced_or_done {w : Walk} {id q : PinId} (h : Settled b g c w id)
    (hq : Copies b c w.pins id q) :
  Forced b g c id q
    ∨ ∀ p, Relation.ReflTransGen (Copies b c w.pins) q p → w.visit[p]? = some .done
  := by
  rcases h.forced_or_chooses hq with hforced | hchooses
  · left
    apply hforced
  · right
    apply h.done_of_chooses hchooses hq

/-- A pin that is done copies what it has to. -/
theorem Settled.copies_of_forced {w : Walk} {id q : PinId} (h : Settled b g c w id)
    (hq : Forced b g c id q) :
  Copies b c w.pins id q
  := by
  cases hq with
  | first known wired =>
    cases h with
    | idle wired' => simp_all
    | free wired' _ _ _ pin =>
      rw [wired] at wired'
      cases wired'
      rw [copies_of_selected pin rfl]
    | fed _ known' => simp_all
  | forward wired forwards =>
    cases h with
    | idle _ _ forwards' _ _ pin =>
      rw [forwards] at forwards'
      cases forwards'
      rw [copies_of_idle pin rfl forwards]
    | free wired' => simp_all
    | fed wired' _ next => simp_all

/-- What leads to a pin that waits by copying does so by force. -/
theorem Walk.Inv.forced_of_pendingAfter {w : Walk} (hw : w.Inv b g c) {links : Nat} {id : PinId}
    (h : PendingAfter b c w links id) (hid : w.Dealt id) :
  ∃ q, w.visit[q]? = some .visiting ∧ Relation.ReflTransGen (Forced b g c) id q
  := by
  induction h with
  | @here id visit => use id, visit
  | @beyond id next v links visit ne copies rest ih =>
    rcases hid.visiting_or_done with hvisiting | hdone
    · rw [visit] at hvisiting
      cases hvisiting
      contradiction
    have hsettled := hw.settled id hdone
    obtain ⟨q, hq, hforced⟩ := ih (hsettled.dealt_of_copies copies)
    rcases hsettled.forced_or_done copies with hnext | hnext
    · use q, hq
      apply Relation.ReflTransGen.head hnext hforced
    · cases not_pendingAfter_of_done hnext rest

/-- What leads to a pin that waits by force does so by copying. -/
theorem Walk.Inv.pendingAfter_of_forced {w : Walk} (hw : w.Inv b g c) {id q : PinId}
    (h : Relation.ReflTransGen (Forced b g c) id q) (hq : w.visit[q]? = some .visiting)
    (hid : w.Dealt id) :
  ∃ links, PendingAfter b c w links id
  := by
  induction h using Relation.ReflTransGen.head_induction_on with
  | refl =>
    use 0
    apply PendingAfter.here hq
  | @head id next hnext hrest ih =>
    rcases hid.visiting_or_done with hvisiting | hdone
    · use 0
      apply PendingAfter.here hvisiting
    · have hsettled := hw.settled id hdone
      have hcopies := hsettled.copies_of_forced hnext
      obtain ⟨links, hlinks⟩ := ih (hsettled.dealt_of_copies hcopies)
      use links + 1
      apply PendingAfter.beyond hdone (by simp) hcopies hlinks

/-- The pins that wait are those on the stack. -/
theorem Walk.Inv.held_iff {w : Walk} (hw : w.Inv b g c) {id : PinId} (hid : w.Dealt id) :
  Held b g c (w.stack.map (·.pin)) id ↔ ∃ links, PendingAfter b c w links id
  := by
  constructor
  · rintro ⟨q, hq, hforced⟩
    obtain ⟨f, hf, rfl⟩ := List.mem_map.mp hq
    apply hw.pendingAfter_of_forced hforced _ hid
    rw [hw.waiting]
    use f, hf
  · rintro ⟨links, hlinks⟩
    obtain ⟨q, hq, hforced⟩ := hw.forced_of_pendingAfter hlinks hid
    use q
    constructor
    · obtain ⟨f, hf, rfl⟩ := (hw.waiting q).mp hq
      apply List.mem_map_of_mem hf
    · apply hforced

/-! ### Edges that are passed -/

/-- What is barren stays so as the walk goes on. -/
theorem Barren.extend {w w' : Walk} (h : w.Extends w') {waiting : List PinId} {net : NetId}
    {i : Input} (hi : Barren b g c w waiting net i) :
  Barren b g c w' waiting net i
  := by
  constructor
  · apply h.dealt _ hi.dealt
  · apply hi.held

/-- What has been passed stays barren as the walk goes on. -/
theorem Passed.extend {w w' : Walk} (h : w.Extends w') {stack : List Frame}
    (hpassed : Passed b g c w stack) :
  Passed b g c w' stack
  := by
  induction stack with
  | nil => trivial
  | cons f below ih =>
    constructor
    · intro net hknown i hi
      apply (hpassed.1 net hknown i hi).extend h
    · apply ih hpassed.2

/-- A pin that has just been put on the stack has passed no edge. -/
theorem Passed.push {w w' : Walk} {id : PinId} (hid : w.visit[id]? = some .unvisited)
    (h : w.push b c id = .ok w') (hpassed : Passed b g c w w.stack) :
  Passed b g c w' w'.stack
  := by
  have hextends := extends_of_push hid h
  obtain ⟨inputs, -, -, rfl⟩ := push_eq_ok_iff.mp h
  constructor
  · intro net _ i hi
    simp at hi
  · apply hpassed.extend hextends

/-- An edge that is skipped is barren. -/
theorem barren_of_skip {w : Walk} (hw : w.Inv b g c) {f : Frame}
    (hmoves : f.Moves b g c w .skip) {net : NetId}
    (hknown : knownNet b g c f.pin = .ok (some net)) :
  ∃ i, f.inputs[f.cursor]? = some i ∧ Barren b g c w (w.stack.map (·.pin)) net i
  := by
  cases hmoves with
  | @skipWaiting net' i known next visit =>
    use i, next
    constructor
    · apply Walk.dealt_of_visiting visit
    · intro _
      rw [hw.held_iff (Walk.dealt_of_visiting visit)]
      use 0
      apply PendingAfter.here visit
  | @skipOther net' i found known next visit resolved ne =>
    use i, next
    constructor
    · apply Walk.dealt_of_done visit
    · intro hcarries
      rw [known] at hknown
      cases hknown
      cases ne (((hw.settled _ visit).carries resolved).unique hcarries)
  | @skipPending net' i known next visit resolved pending =>
    use i, next
    constructor
    · apply Walk.dealt_of_done visit
    · intro _
      rw [hw.held_iff (Walk.dealt_of_done visit)]
      apply pendingAfter_of_dependsOnPending pending

/-- Each move keeps passed edges barren. -/
theorem Passed.apply {w w' : Walk} (hw : w.Inv b g c) {f : Frame} {below : List Frame} {m : Move}
    (hstack : w.stack = f :: below) (hmoves : f.Moves b g c w m)
    (h : w.apply b c f below m = .ok w') (hpassed : Passed b g c w w.stack) :
  Passed b g c w' w'.stack
  := by
  have hextends := hw.extends hstack hmoves h
  cases m with
  | descend id => apply hpassed.push hmoves.unvisited_of_descend h
  | skip =>
    obtain rfl := pure_eq_ok_iff.mp h
    constructor
    · intro net hknown i hi
      obtain ⟨i', hnext, hi'⟩ := barren_of_skip hw hmoves hknown
      rw [hstack] at hpassed hi'
      rw [List.take_add_one, hnext, List.mem_append] at hi
      rcases hi with hi | hi
      · apply (hpassed.1 net hknown i hi).extend hextends
      · obtain rfl := List.mem_singleton.mp hi
        apply hi'.extend hextends
    · rw [hstack] at hpassed
      apply hpassed.2.extend hextends
  | finish selected resolved isOpen =>
    rw [hstack] at hpassed
    have hbelow := hpassed.2.extend hextends
    obtain rfl := eq_of_finish h
    apply hbelow

/-- In all states that the walk passes, the edges that have been passed are barren. -/
theorem Passes.passed {next moves : Nat} {w : Walk} (h : Passes b g t c next moves w) :
  Passed b g c w w.stack
  := by
  induction h with
  | start => trivial
  | pass before stack bound visit ne ih => apply ih
  | enter before stack bound visit push ih => apply ih.push visit push
  | move before stack move apply ih =>
    apply ih.apply before.inv stack (Frame.moves_of_move move) apply

/-! ### Pins on the stack -/

/-- A pin wants the one it descends to. -/
theorem wants_of_descend {w : Walk} {f : Frame} {id : PinId}
    (hwired : inputsOf b c f.pin = .ok f.inputs) (h : f.Moves b g c w (.descend id)) :
  Wants b g c f.pin id
  := by
  cases h with
  | await known idle forwards visit =>
    apply Wants.forced
    rw [idle] at hwired
    apply Forced.forward hwired forwards
  | descendKnown known next visit =>
    apply Wants.any known hwired
    apply List.mem_of_getElem? next
  | descendFree known inputs visit =>
    apply Wants.forced
    rw [inputs] at hwired
    apply Forced.first known hwired

/-- In all states that the walk passes, each pin on the stack wants the one above it. -/
theorem Passes.chained {next moves : Nat} {w : Walk} (h : Passes b g t c next moves w) :
  (w.stack.map (·.pin)).IsChain fun id q => Wants b g c q id
  := by
  induction h with
  | start => apply List.IsChain.nil
  | pass before stack bound visit ne ih => apply ih
  | enter before stack bound visit push ih =>
    obtain ⟨inputs, -, -, rfl⟩ := push_eq_ok_iff.mp push
    rw [stack]
    apply List.IsChain.singleton
  | @move next moves w w' f below m before stack move apply ih =>
    have hmoves := Frame.moves_of_move move
    cases m with
    | descend id =>
      obtain ⟨inputs, -, -, rfl⟩ := push_eq_ok_iff.mp apply
      rw [stack] at ih ⊢
      apply List.IsChain.cons_cons _ ih
      apply wants_of_descend _ hmoves
      apply before.inv.wired
      rw [stack]
      apply List.mem_cons_self
    | skip =>
      obtain rfl := pure_eq_ok_iff.mp apply
      rw [stack] at ih
      apply ih
    | finish selected resolved isOpen =>
      obtain rfl := eq_of_finish apply
      rw [stack] at ih
      apply ih.tail

/-- All pins of a chain want the first one in the end. -/
theorem wants_of_chain {id : PinId} {ids : List PinId}
    (h : (id :: ids).IsChain fun id q => Wants b g c q id) :
  ∀ q ∈ id :: ids, Relation.ReflTransGen (Wants b g c) q id
  := by
  induction ids generalizing id with
  | nil =>
    intro q hq
    rw [List.mem_singleton.mp hq]
  | cons next ids ih =>
    obtain ⟨hnext, hrest⟩ := List.isChain_cons_cons.mp h
    intro q hq
    rcases List.mem_cons.mp hq with rfl | hq
    · apply Relation.ReflTransGen.refl
    · apply (ih hrest q hq).tail hnext

/-- In all states that the walk passes, each pin on the stack wants the one on top of it in the
end. -/
theorem Passes.wants_top {next moves : Nat} {w : Walk} (h : Passes b g t c next moves w) {f : Frame}
    {below : List Frame} (hstack : w.stack = f :: below) {q : PinId}
    (hq : q ∈ w.stack.map (·.pin)) :
  Relation.ReflTransGen (Wants b g c) q f.pin
  := by
  have hchained := h.chained
  rw [hstack] at hq hchained
  apply wants_of_chain hchained q hq

end RoutingFabric.Cluster
