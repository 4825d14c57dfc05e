import RoutingFabric.Proofs.Cluster.Moves
import RoutingFabric.Proofs.Cluster.Pending

/-!
# The invariant of the walk

A pin that is done is settled: the net resolved for it is the one it carries, and its driver is
the one it has to take, or for a pin with a known net one that brings the net without any pin
that waits. What is settled stays so, since no later move touches a pin that is done.
-/

namespace RoutingFabric.Cluster

variable (b : BlockGraph) (g : RoutingGraph) (t : NetTable) (c : Cluster)

/-- The walk has dealt with the pin, or does so now. -/
def Walk.Dealt (w : Walk) (id : PinId) : Prop := ∃ v, w.visit[id]? = some v ∧ v ≠ .unvisited

/-- What a pin that is done is left with. -/
inductive Settled (w : Walk) (id : PinId) : Prop
  /-- nothing drives it -/
  | idle {own : Option NetId} {input : Option PinId} {isOpen : Bool}
    (wired : inputsOf b c id = .ok []) (known : knownNet b g c id = .ok own)
    (forwards : forwarded b c id = .ok input) (dealt : ∀ q, input = some q → w.Dealt q)
    (undriven : isUndriven b id = .ok isOpen)
    (pin : w.pins[id]? = some { isOpen }) (resolved : w.resolved[id]? = some own)
  /-- it takes its first edge -/
  | free {i : Input} {rest : List Input} {net : Option NetId}
    (wired : inputsOf b c id = .ok (i :: rest)) (known : knownNet b g c id = .ok none)
    (dealt : w.Dealt i.source) (source : Carries b g c i.source net)
    (pin : w.pins[id]? = some { selected := some ⟨i.source, i.edge, 0, rest.length + 1⟩ })
    (resolved : w.resolved[id]? = some net)
  /-- it takes an edge that brings its known net -/
  | fed {inputs : List Input} {path : Nat} {i : Input} {net : NetId}
    (wired : inputsOf b c id = .ok inputs) (known : knownNet b g c id = .ok (some net))
    (next : inputs[path]? = some i) (source : Carries b g c i.source (some net))
    (done : ∀ q, Relation.ReflTransGen (Copies b c w.pins) i.source q →
      w.visit[q]? = some .done)
    (pin : w.pins[id]? = some { selected := some ⟨i.source, i.edge, path, inputs.length⟩ })
    (resolved : w.resolved[id]? = some (some net))

/-- The invariant of the walk. -/
structure Walk.Inv (w : Walk) : Prop where
  visits : w.visit.size = b.pins.size
  states : w.pins.size = b.pins.size
  nets : w.resolved.size = b.pins.size
  /-- the pins that wait are those on the stack -/
  waiting : ∀ id, w.visit[id]? = some .visiting ↔ ∃ f ∈ w.stack, f.pin = id
  /-- no pin is on the stack twice -/
  nodup : (w.stack.map (·.pin)).Nodup
  /-- the pins on the stack hold the edges that may drive them -/
  wired : ∀ f ∈ w.stack, inputsOf b c f.pin = .ok f.inputs
  /-- nothing is known of a pin that is not done -/
  blank : ∀ id < b.pins.size, w.visit[id]? ≠ some .done → w.pins[id]? = some {}
  /-- a pin that is done is settled -/
  settled : ∀ id, w.visit[id]? = some .done → Settled b g c w id

variable {b g t c}

/-- A pin that is done has been dealt with. -/
theorem Walk.dealt_of_done {w : Walk} {id : PinId} (h : w.visit[id]? = some .done) :
  w.Dealt id
  := by
  use .done, h
  simp

/-- A pin that waits is being dealt with. -/
theorem Walk.dealt_of_visiting {w : Walk} {id : PinId} (h : w.visit[id]? = some .visiting) :
  w.Dealt id
  := by
  use .visiting, h
  simp

/-- A pin that has been dealt with waits or is done. -/
theorem Walk.Dealt.visiting_or_done {w : Walk} {id : PinId} (h : w.Dealt id) :
  w.visit[id]? = some .visiting ∨ w.visit[id]? = some .done
  := by
  obtain ⟨v, hv, hne⟩ := h
  cases v with
  | unvisited => contradiction
  | visiting => left; apply hv
  | done => right; apply hv

/-! ### Settled pins -/

/-- A settled pin carries the net that is resolved for it. -/
theorem Settled.carries {w : Walk} {id : PinId} {net : Option NetId}
    (h : Settled b g c w id) (hnet : w.resolved[id]? = some net) :
  Carries b g c id net
  := by
  cases h with
  | idle wired known forwards dealt undriven pin resolved =>
    rw [resolved] at hnet
    cases hnet
    cases net with
    | none => apply Carries.idle known wired
    | some net => apply Carries.known known
  | free wired known dealt source pin resolved =>
    rw [resolved] at hnet
    cases hnet
    apply Carries.first known wired source
  | fed wired known next source done pin resolved =>
    rw [resolved] at hnet
    cases hnet
    apply Carries.known known

/-- A pin with its selected driver copies from that. -/
theorem copies_of_selected {pins : Array PinState} {id : PinId} {s : PinState} {d : LocalDriver}
    (h : pins[id]? = some s) (hs : s.selected = some d) (q : PinId) :
  Copies b c pins id q ↔ q = d.pin
  := by
  rw [Copies, dependency, entry_eq_ok_iff.mpr h, ok_bind, hs]
  simp only [pure_eq_ok_iff, Option.some.injEq]
  apply eq_comm

/-- A pin without a driver copies from the input that it forwards. -/
theorem copies_of_idle {pins : Array PinState} {id : PinId} {s : PinState} {input : Option PinId}
    (h : pins[id]? = some s) (hs : s.selected = none) (hinput : forwarded b c id = .ok input)
    (q : PinId) :
  Copies b c pins id q ↔ input = some q
  := by
  rw [Copies, dependency, entry_eq_ok_iff.mpr h, ok_bind, hs, hinput]
  simp only [Except.ok.injEq]

/-- What a settled pin copies from has been dealt with. -/
theorem Settled.dealt_of_copies {w : Walk} {id q : PinId}
    (h : Settled b g c w id) (hq : Copies b c w.pins id q) :
  w.Dealt q
  := by
  cases h with
  | idle wired known forwards dealt undriven pin resolved =>
    apply dealt
    apply (copies_of_idle pin rfl forwards q).mp hq
  | free wired known dealt source pin resolved =>
    rw [(copies_of_selected pin rfl q).mp hq]
    apply dealt
  | fed wired known next source done pin resolved =>
    rw [(copies_of_selected pin rfl q).mp hq]
    apply Walk.dealt_of_done
    apply done _ Relation.ReflTransGen.refl

/-- The walk has gone on: what is done is left as it is. -/
structure Walk.Extends (w w' : Walk) : Prop where
  done : ∀ id : PinId, w.visit[id]? = some .done → w'.visit[id]? = some .done
  pin : ∀ id : PinId, w.visit[id]? = some .done → w'.pins[id]? = w.pins[id]?
  resolved : ∀ id : PinId, w.visit[id]? = some .done → w'.resolved[id]? = w.resolved[id]?
  dealt : ∀ id : PinId, w.Dealt id → w'.Dealt id

/-- A pin that is done copies what it copied before. -/
theorem Walk.Extends.copies_iff {w w' : Walk} (h : w.Extends w') {id q : PinId}
    (hdone : w.visit[id]? = some .done) :
  Copies b c w'.pins id q ↔ Copies b c w.pins id q
  := by
  have hentry : entry w'.pins id = entry w.pins id := by
    rw [entry, entry, h.pin id hdone]
  rw [Copies, Copies, dependency, dependency, hentry]

/-- Where all pins that are copied from on the way were done, the way is the same. -/
theorem Walk.Extends.way_back {w w' : Walk} (h : w.Extends w') {id q : PinId}
    (hdone : ∀ q, Relation.ReflTransGen (Copies b c w.pins) id q → w.visit[q]? = some .done)
    (hq : Relation.ReflTransGen (Copies b c w'.pins) id q) :
  Relation.ReflTransGen (Copies b c w.pins) id q
  := by
  induction hq with
  | refl => apply Relation.ReflTransGen.refl
  | tail _ hcopies ih =>
    apply ih.tail
    apply (h.copies_iff (hdone _ ih)).mp hcopies

/-- Where all pins that are copied from on the way were done, they are done still. -/
theorem Walk.Extends.done_of_copies {w w' : Walk} (h : w.Extends w') {id : PinId}
    (hdone : ∀ q, Relation.ReflTransGen (Copies b c w.pins) id q → w.visit[q]? = some .done)
    (q : PinId) (hq : Relation.ReflTransGen (Copies b c w'.pins) id q) :
  w'.visit[q]? = some .done
  := by
  apply h.done q
  apply hdone q
  apply h.way_back hdone hq

/-- What is settled stays settled. -/
theorem Settled.extend {w w' : Walk} (h : w.Extends w') {id : PinId}
    (hdone : w.visit[id]? = some .done) (hs : Settled b g c w id) :
  Settled b g c w' id
  := by
  cases hs with
  | idle wired known forwards dealt undriven pin resolved =>
    apply Settled.idle wired known forwards _ undriven
    · rw [h.pin id hdone, pin]
    · rw [h.resolved id hdone, resolved]
    · intro q hq
      apply h.dealt q (dealt q hq)
  | free wired known dealt source pin resolved =>
    apply Settled.free wired known (h.dealt _ dealt) source
    · rw [h.pin id hdone, pin]
    · rw [h.resolved id hdone, resolved]
  | fed wired known next source done pin resolved =>
    apply Settled.fed wired known next source (h.done_of_copies done)
    · rw [h.pin id hdone, pin]
    · rw [h.resolved id hdone, resolved]

end RoutingFabric.Cluster
