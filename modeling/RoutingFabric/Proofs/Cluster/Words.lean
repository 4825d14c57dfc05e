import RoutingFabric.Fabric.Words
import RoutingFabric.Proofs.Cluster.Round
import RoutingFabric.Proofs.Cluster.Work

/-!
# Counting in clusters in machine words

A pin goes past no more edges than may drive it, and propagation counts no pin twice. So these
counts stay in the machine word where the numbers of edges and of pins are in it.
-/

namespace RoutingFabric.Cluster

variable {b : BlockGraph} {g : RoutingGraph} {t : NetTable} {c c' : Cluster} {id : PinId}
variable {ids : List PinId} {n count changed next moves moves' : Nat} {w w' : Walk}

/-! ### Selecting drivers -/

/-- A move is carried out in words where the number of edges that may drive the pin is one. -/
theorem words_apply {f : Frame} {below : List Frame} {m : Move} (hmoves : f.Moves b g c w m)
    (hedges : f.inputs.length < wordLimit) :
  InWords.apply b c w f below m = w.apply b c f below m
  := by
  cases m with
  | descend id => rfl
  | skip =>
    have hcursor := hmoves.lt_of_skip
    rw [InWords.apply, word_of_lt (by omega)]
    rfl
  | finish selected resolved isOpen => rfl

/-- From each state that the walk passes, the stack is emptied in words where the numbers of edges
that may drive pins are words. -/
theorem Passes.words_drain (h : Passes b g t c next moves w)
    (hedges : ∀ id, inputCount b c id < wordLimit) :
  InWords.drain b g t c moves w = w.drain b g t c moves
  := by
  induction moves generalizing w with
  | zero => cases hstack : w.stack <;> rw [InWords.drain, Walk.drain, hstack]
  | succ moves ih =>
    cases hstack : w.stack with
    | nil => rw [InWords.drain, Walk.drain, hstack]
    | cons f below =>
      have hf : f ∈ w.stack := by
        rw [hstack]
        apply List.mem_cons_self
      rw [InWords.drain, drain_of_cons hstack, hstack]
      apply bind_congr_of_ok
      intro m hmove
      rw [words_apply (Frame.moves_of_move hmove)]
      · apply bind_congr_of_ok
        intro w' happly
        apply ih (Passes.move h hstack hmove happly)
      · -- a pin on the stack holds the edges that may drive it
        rw [← inputCount_eq_length (h.inv.wired f hf)]
        apply hedges

/-- Emptying the stack leads from a state that the walk passes to one. -/
theorem Passes.of_drain (h : Passes b g t c next moves w)
    (hok : w.drain b g t c moves = .ok (moves', w')) :
  Passes b g t c next moves' w' ∧ w'.stack = []
  := by
  induction moves generalizing w with
  | zero =>
    cases hstack : w.stack with
    | nil =>
      rw [drain_of_nil hstack] at hok
      cases hok
      exact ⟨h, hstack⟩
    | cons f below =>
      rw [Walk.drain, hstack] at hok
      cases fault_ne_ok hok
  | succ moves ih =>
    cases hstack : w.stack with
    | nil =>
      rw [drain_of_nil hstack] at hok
      cases hok
      exact ⟨h, hstack⟩
    | cons f below =>
      rw [drain_of_cons hstack] at hok
      obtain ⟨m, hmove, hok⟩ := bind_eq_ok_iff.mp hok
      obtain ⟨w'', happly, hok⟩ := bind_eq_ok_iff.mp hok
      apply ih (Passes.move h hstack hmove happly) hok

/-- From each state with an empty stack that the walk passes, it deals with the next pin in words,
and passes the state that this leads to. -/
theorem Passes.words_visitPin (h : Passes b g t c next moves w) (hstack : w.stack = [])
    (hnext : next < b.pins.size) (hedges : ∀ id, inputCount b c id < wordLimit) :
  InWords.visitPin b g t c moves w next = w.visitPin b g t c moves next
    ∧ ∀ moves' w', w.visitPin b g t c moves next = .ok (moves', w') →
      Passes b g t c (next + 1) moves' w' ∧ w'.stack = []
  := by
  rw [InWords.visitPin, Walk.visitPin]
  cases hv : entry w.visit next with
  | error e =>
    use rfl
    rintro moves' w' ⟨⟩
  | ok v =>
    have hvisit := entry_eq_ok_iff.mp hv
    simp only [ok_bind]
    split
    · rename_i hunvisited
      rw [hunvisited] at hvisit
      have hpasses : ∀ w', w.push b c next = .ok w' → Passes b g t c (next + 1) moves w' :=
        fun w' => Passes.enter h hstack hnext hvisit
      constructor
      · apply bind_congr_of_ok
        intro w' hpush
        apply (hpasses w' hpush).words_drain hedges
      · intro moves' w'' hok
        obtain ⟨w', hpush, hok⟩ := bind_eq_ok_iff.mp hok
        apply (hpasses w' hpush).of_drain hok
    · rename_i hne
      use rfl
      intro moves' w' hok
      cases pure_eq_ok_iff.mp hok
      exact ⟨Passes.pass h hstack hnext hvisit hne, hstack⟩

/-- The walk deals with the pins left in words. -/
theorem Passes.words_visits (h : Passes b g t c next moves w) (hstack : w.stack = [])
    (hnext : next + n ≤ b.pins.size) (hedges : ∀ id, inputCount b c id < wordLimit) :
  (List.range' next n).foldlM (fun (moves, w) id => InWords.visitPin b g t c moves w id) (moves, w)
    = (List.range' next n).foldlM (fun (moves, w) id => w.visitPin b g t c moves id) (moves, w)
  := by
  induction n generalizing next moves w with
  | zero => rfl
  | succ n ih =>
    rw [List.range'_succ, List.foldlM_cons, List.foldlM_cons]
    obtain ⟨hwords, hpasses⟩ := h.words_visitPin hstack (by omega) hedges
    dsimp only
    rw [hwords]
    apply bind_congr_of_ok
    rintro ⟨moves', w'⟩ hvisit
    obtain ⟨h', hstack'⟩ := hpasses moves' w' hvisit
    apply ih h' hstack'
    omega

/-- Drivers are selected in words where the numbers of edges that may drive pins are words. -/
theorem words_selectWithin (hedges : ∀ id, inputCount b c id < wordLimit) :
  InWords.selectWithin b g t c (moveBound b) = selectWithin b g t c (moveBound b)
  := by
  have hstart : Passes b g t c 0 (moveBound b) (Walk.start b.pins.size) := Passes.start
  rw [InWords.selectWithin, selectWithin, List.range_eq_range',
    hstart.words_visits rfl (by omega) hedges]

/-- Drivers are selected, counted and reported in words where the numbers of pins and of edges that
may drive them are words. -/
theorem run_words_selectLocalDrivers (hpins : b.pins.size < wordLimit)
    (hedges : ∀ id, inputCount b c id < wordLimit) :
  (InWords.selectLocalDrivers b g t).run c = (selectLocalDrivers b g t).run c
  := by
  apply Phase.run_state_bind_congr
  rw [words_selectWithin hedges]
  apply Phase.run_lift_bind_congr
  intro pins hselect
  obtain ⟨moves, w, hpasses, -, rfl⟩ := exists_passes_of_ok hselect
  apply Phase.run_lift_bind_congr
  intro order _
  apply Phase.run_put_bind_congr
  have hcount : ∀ p : PinState → Bool, w.pins.toList.countP p < wordLimit := by
    intro p
    apply Nat.lt_of_le_of_lt List.countP_le_length
    rw [Array.length_toList, hpasses.inv.states]
    apply hpins
  apply (Phase.run_word_bind (hcount (·.selected.isSome))).trans
  apply Phase.run_word_bind (hcount (·.isOpen))

/-! ### Propagating nets -/

/-- A pin is counted at most once. -/
theorem count_le_of_propagatePin (h : propagatePin b g t c id = .ok (count, c')) : count ≤ 1 := by
  simp only [propagatePin, bind_eq_ok_iff, pure_eq_ok_iff] at h
  obtain ⟨_, -, _, -, _, -, _, -, h⟩ := h
  cases h
  split <;> omega

/-- Pins take their nets, counted in words where there is room for all of them. -/
theorem words_propagatePins (hroom : changed + ids.length < wordLimit) :
  InWords.propagatePins b g t c changed ids = countedFrom changed (propagatePins b g t c ids)
  := by
  induction ids generalizing c changed with
  | nil => rfl
  | cons id ids ih =>
    rw [List.length_cons] at hroom
    apply countedFrom_after
    rintro ⟨here, c'⟩ hpin
    have hle := count_le_of_propagatePin hpin
    dsimp only
    rw [word_of_lt (by omega), ok_bind]
    apply Eq.trans _ (countedFrom_countedFrom _).symm
    apply ih
    omega

/-- Nets are propagated in an ordered cluster, counted in words where the number of pins is one. -/
theorem Ordered.words_propagateNets (h : Ordered b c) (hpins : c.locals.pins.size < wordLimit) :
  InWords.propagateNets b g t c = propagateNets b g t c
  := by
  have hle := h.length_order_le
  rw [InWords.propagateNets, propagateNets, words_propagatePins (by omega), countedFrom_zero]

end RoutingFabric.Cluster
