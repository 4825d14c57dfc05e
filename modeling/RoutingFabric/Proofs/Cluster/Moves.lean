import RoutingFabric.Cluster.Selection
import RoutingFabric.Proofs.BlockGraph.References
import RoutingFabric.Proofs.Cluster.Links

/-!
# Moves of the walk

All that the pin on top of the stack can do next, and what stops it: a pin with a known net that
has come to the end of its edges misses a driver, and a pin without one whose first edge comes
from a pin that waits and has no net of its own closes a cycle. No other operation of the walk
is stopped by a problem.
-/

namespace RoutingFabric.Cluster

variable (b : BlockGraph) (g : RoutingGraph) (t : NetTable) (c : Cluster)

/-! ### What a pin does next -/

/-- The moves of a pin, with the facts that lead to each. -/
inductive Frame.Moves (w : Walk) (f : Frame) : Move → Prop
  /-- it forwards an input that has not been dealt with -/
  | await {own : Option NetId} {input : PinId} (known : knownNet b g c f.pin = .ok own)
    (idle : f.inputs = []) (forwards : forwarded b c f.pin = .ok (some input))
    (visit : w.visit[input]? = some .unvisited) :
    Frame.Moves w f (.descend input)
  /-- nothing drives it, and the input it may forward has been dealt with -/
  | idle {own : Option NetId} {isOpen : Bool} {input : Option PinId}
    (known : knownNet b g c f.pin = .ok own) (idle : f.inputs = [])
    (forwards : forwarded b c f.pin = .ok input)
    (visit : ∀ id, input = some id → ∃ v, w.visit[id]? = some v ∧ v ≠ .unvisited)
    (undriven : isUndriven b f.pin = .ok isOpen) :
    Frame.Moves w f (.finish none own isOpen)
  /-- its next edge comes from a pin that has not been dealt with -/
  | descendKnown {net : NetId} {i : Input} (known : knownNet b g c f.pin = .ok (some net))
    (next : f.inputs[f.cursor]? = some i) (visit : w.visit[i.source]? = some .unvisited) :
    Frame.Moves w f (.descend i.source)
  /-- its next edge comes from a pin that waits -/
  | skipWaiting {net : NetId} {i : Input} (known : knownNet b g c f.pin = .ok (some net))
    (next : f.inputs[f.cursor]? = some i) (visit : w.visit[i.source]? = some .visiting) :
    Frame.Moves w f .skip
  /-- its next edge brings another net -/
  | skipOther {net : NetId} {i : Input} {found : Option NetId}
    (known : knownNet b g c f.pin = .ok (some net)) (next : f.inputs[f.cursor]? = some i)
    (visit : w.visit[i.source]? = some .done) (resolved : w.resolved[i.source]? = some found)
    (ne : found ≠ some net) :
    Frame.Moves w f .skip
  /-- its next edge brings its net, but from a pin that waits -/
  | skipPending {net : NetId} {i : Input} (known : knownNet b g c f.pin = .ok (some net))
    (next : f.inputs[f.cursor]? = some i) (visit : w.visit[i.source]? = some .done)
    (resolved : w.resolved[i.source]? = some (some net))
    (pending : dependsOnPending b c w (w.pins.size + 1) (some i.source) = .ok true) :
    Frame.Moves w f .skip
  /-- its next edge brings its net -/
  | take {net : NetId} {i : Input} (known : knownNet b g c f.pin = .ok (some net))
    (next : f.inputs[f.cursor]? = some i) (visit : w.visit[i.source]? = some .done)
    (resolved : w.resolved[i.source]? = some (some net))
    (pending : dependsOnPending b c w (w.pins.size + 1) (some i.source) = .ok false) :
    Frame.Moves w f (.finish (some (f.driver f.cursor i)) (some net) false)
  /-- its first edge comes from a pin that has not been dealt with -/
  | descendFree {i : Input} {rest : List Input} (known : knownNet b g c f.pin = .ok none)
    (inputs : f.inputs = i :: rest) (visit : w.visit[i.source]? = some .unvisited) :
    Frame.Moves w f (.descend i.source)
  /-- its first edge comes from a pin that waits, but has a net of its own -/
  | freeWaiting {i : Input} {rest : List Input} {net : Option NetId}
    (known : knownNet b g c f.pin = .ok none) (inputs : f.inputs = i :: rest)
    (visit : w.visit[i.source]? = some .visiting)
    (pending : pendingNet b g c i.source = .ok (some net)) :
    Frame.Moves w f (.finish (some (f.driver 0 i)) net false)
  /-- its first edge comes from a pin that is done -/
  | freeDone {i : Input} {rest : List Input} {net : Option NetId}
    (known : knownNet b g c f.pin = .ok none) (inputs : f.inputs = i :: rest)
    (visit : w.visit[i.source]? = some .done) (resolved : w.resolved[i.source]? = some net) :
    Frame.Moves w f (.finish (some (f.driver 0 i)) net false)

variable {b g t c}

/-- A pin that no edge may drive makes no moves but these. -/
theorem Frame.moves_of_moveIdle {w : Walk} {f : Frame} {own : Option NetId} {m : Move}
    (hknown : knownNet b g c f.pin = .ok own) (hinputs : f.inputs = [])
    (h : f.moveIdle b c w own = .ok m) :
  f.Moves b g c w m
  := by
  rw [Frame.moveIdle, bind_eq_ok_iff] at h
  obtain ⟨input, hforwards, h⟩ := h
  cases input with
  | none =>
    simp only [bind_eq_ok_iff, pure_eq_ok_iff] at h
    obtain ⟨isOpen, hopen, rfl⟩ := h
    apply Frame.Moves.idle hknown hinputs hforwards _ hopen
    simp
  | some input =>
    simp only [bind_eq_ok_iff, entry_eq_ok_iff] at h
    obtain ⟨v, hv, h⟩ := h
    split at h
    · rename_i hunvisited
      rw [hunvisited] at hv
      obtain rfl := pure_eq_ok_iff.mp h
      apply Frame.Moves.await hknown hinputs hforwards hv
    · rename_i hvisited
      simp only [bind_eq_ok_iff, pure_eq_ok_iff] at h
      obtain ⟨isOpen, hopen, rfl⟩ := h
      apply Frame.Moves.idle hknown hinputs hforwards _ hopen
      rintro id ⟨⟩
      use v

/-- A pin with a known net makes no moves but these. -/
theorem Frame.moves_of_moveKnown {w : Walk} {f : Frame} {net : NetId} {m : Move}
    (hknown : knownNet b g c f.pin = .ok (some net)) (h : f.moveKnown b t c w net = .ok m) :
  f.Moves b g c w m
  := by
  rw [Frame.moveKnown] at h
  cases hnext : f.inputs[f.cursor]? with
  | none => simp [hnext] at h
  | some i =>
    simp only [hnext, bind_eq_ok_iff, entry_eq_ok_iff] at h
    obtain ⟨v, hv, h⟩ := h
    cases v with
    | unvisited =>
      obtain rfl := pure_eq_ok_iff.mp h
      apply Frame.Moves.descendKnown hknown hnext hv
    | visiting =>
      obtain rfl := pure_eq_ok_iff.mp h
      apply Frame.Moves.skipWaiting hknown hnext hv
    | done =>
      simp only [bind_eq_ok_iff, entry_eq_ok_iff] at h
      obtain ⟨found, hfound, h⟩ := h
      split at h
      · rename_i heq
        rw [heq] at hfound
        obtain ⟨pending, hpending, h⟩ := bind_eq_ok_iff.mp h
        cases pending with
        | true =>
          obtain rfl := pure_eq_ok_iff.mp h
          apply Frame.Moves.skipPending hknown hnext hv hfound hpending
        | false =>
          obtain rfl := pure_eq_ok_iff.mp h
          apply Frame.Moves.take hknown hnext hv hfound hpending
      · rename_i hne
        obtain rfl := pure_eq_ok_iff.mp h
        apply Frame.Moves.skipOther hknown hnext hv hfound hne

/-- A pin without a known net makes no moves but these. -/
theorem Frame.moves_of_moveFree {w : Walk} {f : Frame} {i : Input} {rest : List Input} {m : Move}
    (hknown : knownNet b g c f.pin = .ok none) (hinputs : f.inputs = i :: rest)
    (h : f.moveFree b g c w i = .ok m) :
  f.Moves b g c w m
  := by
  simp only [Frame.moveFree, bind_eq_ok_iff, entry_eq_ok_iff] at h
  obtain ⟨v, hv, h⟩ := h
  cases v with
  | unvisited =>
    obtain rfl := pure_eq_ok_iff.mp h
    apply Frame.Moves.descendFree hknown hinputs hv
  | visiting =>
    obtain ⟨net, hnet, h⟩ := bind_eq_ok_iff.mp h
    cases net with
    | none => simp at h
    | some net =>
      obtain rfl := pure_eq_ok_iff.mp h
      apply Frame.Moves.freeWaiting hknown hinputs hv hnet
  | done =>
    simp only [bind_eq_ok_iff, entry_eq_ok_iff, pure_eq_ok_iff] at h
    obtain ⟨net, hnet, rfl⟩ := h
    apply Frame.Moves.freeDone hknown hinputs hv hnet

/-- A pin makes no moves but these. -/
theorem Frame.moves_of_move {w : Walk} {f : Frame} {m : Move} (h : f.move b g t c w = .ok m) :
  f.Moves b g c w m
  := by
  rw [Frame.move] at h
  obtain ⟨known, hknown, h⟩ := bind_eq_ok_iff.mp h
  cases hinputs : f.inputs with
  | nil =>
    rw [hinputs] at h
    apply Frame.moves_of_moveIdle hknown hinputs h
  | cons first rest =>
    rw [hinputs] at h
    cases known with
    | none => apply Frame.moves_of_moveFree hknown hinputs h
    | some net => apply Frame.moves_of_moveKnown hknown h

/-! ### What stops a pin -/

/-- Asking for the net a pin is known to carry has no problems. -/
theorem problemless_knownNet (id : PinId) : Problemless (knownNet b g c id) := by
  rw [knownNet]
  split
  · apply problemless_pure
  · apply Problemless.bind
    · apply (problemless_entry _ _).bind
      intro p
      apply problemless_pure
    · intro isInput
      split
      · split
        · apply (problemless_entry _ _).bind
          intro n
          apply problemless_pure
        · apply problemless_pure
      · apply problemless_pure

/-- Asking whether a pin is an output of a primitive has no problems. -/
theorem problemless_isPrimitiveOutput (id : PinId) : Problemless (b.isPrimitiveOutput id) := by
  apply (problemless_entry _ _).bind
  intro p
  split
  · apply problemless_pure
  · apply (problemless_entry _ _).bind
    intro block
    apply problemless_pure

/-- Asking for the input that a pin forwards has no problems. -/
theorem problemless_forwarded (id : PinId) : Problemless (forwarded b c id) := by
  rw [forwarded]
  split
  · apply problemless_pure
  · apply (problemless_isPrimitiveOutput id).bind
    intro isOutput
    apply problemless_pure

/-- Asking whether a pin is undriven has no problems. -/
theorem problemless_isUndriven (id : PinId) : Problemless (isUndriven b id) := by
  apply Problemless.bind
  · apply (problemless_entry _ _).bind
    intro p
    apply problemless_pure
  · intro isInput
    split
    · apply problemless_pure
    · apply (problemless_isPrimitiveOutput id).bind
      intro isOutput
      apply problemless_pure

/-- Asking for the active edges that reach a pin has no problems. -/
theorem problemless_activeInputs (id : PinId) : Problemless (b.activeInputs c.modes id) := by
  apply (problemless_entry _ _).bind
  intro p
  apply problemless_filterMapM
  intro e
  apply Problemless.bind
  · apply (problemless_entry _ _).bind
    intro edge
    apply (problemless_entry _ _).bind
    intro ic
    apply problemless_pure
  · intro isActive
    apply problemless_pure

/-- Asking for the edges that may drive a pin has no problems. -/
theorem problemless_inputsOf (id : PinId) : Problemless (inputsOf b c id) := by
  apply (problemless_activeInputs id).bind
  intro edges
  apply problemless_mapM
  intro e
  apply (problemless_entry _ _).bind
  intro edge
  apply problemless_pure

/-- Asking for the pin whose net a pin copies has no problems. -/
theorem problemless_dependency (pins : Array PinState) (id : PinId) :
  Problemless (dependency b c pins id)
  := by
  apply (problemless_entry _ _).bind
  intro s
  split
  · apply problemless_pure
  · apply problemless_forwarded

/-- Asking whether the net of a pin comes from one that waits has no problems. -/
theorem problemless_dependsOnPending (w : Walk) :
    ∀ (n : Nat) (id : Option PinId), Problemless (dependsOnPending b c w n id)
  | 0, _ => problemless_pure _
  | _ + 1, none => problemless_pure _
  | more + 1, some id => by
      apply (problemless_entry _ _).bind
      intro v
      split
      · apply problemless_pure
      · apply (problemless_dependency _ _).bind
        intro next
        apply problemless_dependsOnPending w more next

/-- Asking for the net that a waiting pin will carry has no problems. -/
theorem problemless_pendingNet (id : PinId) : Problemless (pendingNet b g c id) := by
  apply (problemless_knownNet id).bind
  intro known
  split
  · apply problemless_pure
  · apply (problemless_activeInputs id).bind
    intro edges
    split <;> apply problemless_pure

/-- Naming a pin has no problems. -/
theorem problemless_pinName (id : PinId) : Problemless (b.pinName id) := by
  apply (problemless_entry _ _).bind
  intro p
  apply (BlockGraph.problemless_blockPath _).bind
  intro path
  apply problemless_pure

/-- No problem stops a pin that no edge may drive. -/
theorem Frame.problemless_moveIdle (f : Frame) (w : Walk) (known : Option NetId) :
  Problemless (f.moveIdle b c w known)
  := by
  have hfinish :
      Problemless (do return Move.finish none known (← isUndriven b f.pin) : Outcome Move) := by
    apply (problemless_isUndriven f.pin).bind
    intro isOpen
    apply problemless_pure
  apply (problemless_forwarded f.pin).bind
  intro input
  split
  · apply (problemless_entry _ _).bind
    intro v
    split
    · apply problemless_pure
    · apply hfinish
  · apply hfinish

/-- A pin with a known net is stopped only at the end of its edges. -/
theorem Frame.problem_of_moveKnown {w : Walk} {f : Frame} {net : NetId} {p : Problem}
    (h : f.moveKnown b t c w net = .error (.problem p)) :
  ∃ name, f.inputs.length ≤ f.cursor ∧ b.pinName f.pin = .ok name
    ∧ p = .missingLocalDriver c.name name (t.nameOf net) f.inputs.length
  := by
  rw [Frame.moveKnown] at h
  cases hnext : f.inputs[f.cursor]? with
  | none =>
    simp only [hnext] at h
    rcases bind_eq_error_iff.mp h with h | ⟨name, hname, h⟩
    · cases problemless_pinName f.pin p h
    · use name, List.getElem?_eq_none_iff.mp hnext, hname
      apply (fail_eq_problem_iff.mp h).symm
  | some i =>
    simp only [hnext] at h
    refine absurd h (Problemless.bind (problemless_entry _ _) ?_ p)
    intro v
    split
    · apply problemless_pure
    · apply problemless_pure
    · apply (problemless_entry _ _).bind
      intro found
      split
      · apply (problemless_dependsOnPending w _ _).bind
        intro pending
        split <;> apply problemless_pure
      · apply problemless_pure

/-- A pin without a known net is stopped only where its first edge comes from a pin that waits and
has to take its own first edge as well. -/
theorem Frame.problem_of_moveFree {w : Walk} {f : Frame} {i : Input} {p : Problem}
    (h : f.moveFree b g c w i = .error (.problem p)) :
  ∃ name, w.visit[i.source]? = some .visiting ∧ pendingNet b g c i.source = .ok none
    ∧ b.pinName f.pin = .ok name ∧ p = .localDriverCycle c.name name
  := by
  rw [Frame.moveFree] at h
  rcases bind_eq_error_iff.mp h with h | ⟨v, hv, h⟩
  · cases problemless_entry _ _ p h
  cases v with
  | unvisited => cases pure_ne_error h
  | visiting =>
    rcases bind_eq_error_iff.mp h with h | ⟨net, hnet, h⟩
    · cases problemless_pendingNet _ p h
    cases net with
    | some net => cases pure_ne_error h
    | none =>
      rcases bind_eq_error_iff.mp h with h | ⟨name, hname, h⟩
      · cases problemless_pinName _ p h
      · use name, entry_eq_ok_iff.mp hv, hnet, hname
        apply (fail_eq_problem_iff.mp h).symm
  | done =>
    rcases bind_eq_error_iff.mp h with h | ⟨net, -, h⟩
    · cases problemless_entry _ _ p h
    · cases pure_ne_error h

/-- A pin is stopped at most by a driver it misses, once all its edges are passed, or by a cycle
of first edges. -/
theorem Frame.problem_of_move {w : Walk} {f : Frame} {p : Problem}
    (h : f.move b g t c w = .error (.problem p)) :
  (∃ net name, knownNet b g c f.pin = .ok (some net) ∧ f.inputs ≠ []
      ∧ f.inputs.length ≤ f.cursor ∧ b.pinName f.pin = .ok name
      ∧ p = .missingLocalDriver c.name name (t.nameOf net) f.inputs.length)
    ∨ ∃ name, p = .localDriverCycle c.name name
  := by
  rw [Frame.move] at h
  rcases bind_eq_error_iff.mp h with h | ⟨known, hknown, h⟩
  · cases problemless_knownNet f.pin p h
  cases hinputs : f.inputs with
  | nil =>
    rw [hinputs] at h
    cases f.problemless_moveIdle w known p h
  | cons first rest =>
    rw [hinputs] at h
    cases known with
    | none =>
      right
      obtain ⟨name, -, -, -, hp⟩ := Frame.problem_of_moveFree h
      use name
    | some net =>
      left
      obtain ⟨name, hcursor, hname, hp⟩ := Frame.problem_of_moveKnown h
      rw [← hinputs]
      use net, name, hknown
      simp [hinputs, hname, hp] at hcursor ⊢
      omega

end RoutingFabric.Cluster
