import RoutingFabric.Proofs.Cluster.Moves

/-!
# States the walk passes

The walk is deterministic, so the states it passes are listed by an inductive definition, and
from each of them the walk goes on to the one result it has: to the states of the pins, to the
problem that stops a pin, or to a fault.
-/

namespace RoutingFabric.Cluster

variable (b : BlockGraph) (g : RoutingGraph) (t : NetTable) (c : Cluster)

/-- The walk passes the state, with the pins before `next` started from and so many moves
left. -/
inductive Passes : (next moves : Nat) → Walk → Prop
  /-- nothing is done yet -/
  | start : Passes 0 (moveBound b) (Walk.start b.pins.size)
  /-- the next pin has been dealt with -/
  | pass {next moves : Nat} {w : Walk} {v : Visit} (before : Passes next moves w)
    (stack : w.stack = []) (bound : next < b.pins.size) (visit : w.visit[next]? = some v)
    (ne : v ≠ .unvisited) :
    Passes (next + 1) moves w
  /-- the walk starts from the next pin -/
  | enter {next moves : Nat} {w w' : Walk} (before : Passes next moves w)
    (stack : w.stack = []) (bound : next < b.pins.size)
    (visit : w.visit[next]? = some .unvisited) (push : w.push b c next = .ok w') :
    Passes (next + 1) moves w'
  /-- the pin on top of the stack makes a move -/
  | move {next moves : Nat} {w w' : Walk} {f : Frame} {below : List Frame} {m : Move}
    (before : Passes next (moves + 1) w) (stack : w.stack = f :: below)
    (move : f.move b g t c w = .ok m) (apply : w.apply b c f below m = .ok w') :
    Passes next moves w'

/-- What is left of the selection, from a state on. -/
def resume (next moves : Nat) (w : Walk) : Outcome (Array PinState) := do
  let s ← w.drain b g t c moves
  let (_, w) ← (List.range' next (b.pins.size - next)).foldlM
    (fun (moves, w) id => w.visitPin b g t c moves id) s
  return w.pins

variable {b g t c}

/-! ### Going on from a state -/

/-- Nothing is left to do on an empty stack. -/
theorem drain_of_nil {moves : Nat} {w : Walk} (h : w.stack = []) :
  w.drain b g t c moves = .ok (moves, w)
  := by
  rw [Walk.drain, h]
  rfl

/-- The walk goes on from where a move leads. -/
theorem drain_of_cons {moves : Nat} {w : Walk} {f : Frame} {below : List Frame}
    (h : w.stack = f :: below) :
  w.drain b g t c (moves + 1)
    = (f.move b g t c w >>= fun m => w.apply b c f below m >>= Walk.drain b g t c moves)
  := by
  rw [Walk.drain, h]

/-- The selection goes on from where a move leads. -/
theorem resume_of_cons {next moves : Nat} {w : Walk} {f : Frame} {below : List Frame}
    (h : w.stack = f :: below) :
  resume b g t c next (moves + 1) w
    = (f.move b g t c w >>= fun m => w.apply b c f below m >>= resume b g t c next moves)
  := by
  simp only [resume, drain_of_cons h, bind_assoc]
  rfl

/-- On an empty stack the selection goes on with the next pin. -/
theorem resume_of_nil {next moves : Nat} {w : Walk} (h : w.stack = [])
    (hnext : next < b.pins.size) :
  resume b g t c next moves w
    = (entry w.visit next >>= fun v =>
        if v = .unvisited then w.push b c next >>= resume b g t c (next + 1) moves
        else resume b g t c (next + 1) moves w)
  := by
  have hlen : b.pins.size - next = (b.pins.size - (next + 1)) + 1 := by omega
  rw [resume, drain_of_nil h, hlen, List.range'_succ, ok_bind, List.foldlM_cons]
  simp only [Walk.visitPin, bind_assoc]
  congr
  funext v
  split
  · simp only [bind_assoc]
    rfl
  · simp only [resume, drain_of_nil h, pure_bind, ok_bind]
    rfl

/-- On an empty stack with no pins left the selection is over. -/
theorem resume_of_end {moves : Nat} {w : Walk} (h : w.stack = []) :
  resume b g t c b.pins.size moves w = .ok w.pins
  := by
  rw [resume, drain_of_nil h]
  simp [pure, Except.pure]

/-- The selection gives what it goes on to from each state it passes. -/
theorem selectWithin_of_passes {next moves : Nat} {w : Walk} (h : Passes b g t c next moves w) :
  selectWithin b g t c (moveBound b) = resume b g t c next moves w
  := by
  induction h with
  | start =>
    rw [selectWithin, resume, drain_of_nil rfl, List.range_eq_range']
    rfl
  | pass before stack bound visit ne ih =>
    rw [ih, resume_of_nil stack bound, entry_eq_ok_iff.mpr visit, ok_bind, if_neg ne]
  | enter before stack bound visit push ih =>
    rw [ih, resume_of_nil stack bound, entry_eq_ok_iff.mpr visit, ok_bind, if_pos rfl, push,
      ok_bind]
  | move before stack move apply ih =>
    rw [ih, resume_of_cons stack, move, ok_bind, apply, ok_bind]

/-! ### The end of the walk -/

/-- Putting a pin on the stack has no problems. -/
theorem problemless_push (w : Walk) (id : PinId) : Problemless (w.push b c id) := by
  apply (problemless_alter _ _ _).bind
  intro visit
  apply (problemless_inputsOf id).bind
  intro inputs
  apply problemless_pure

/-- Carrying a move out has no problems. -/
theorem problemless_apply (w : Walk) (f : Frame) (below : List Frame) (m : Move) :
  Problemless (w.apply b c f below m)
  := by
  cases m with
  | descend id => apply problemless_push
  | skip => apply problemless_pure
  | finish selected resolved isOpen =>
    apply (problemless_alter _ _ _).bind
    intro visit
    apply (problemless_alter _ _ _).bind
    intro resolved
    apply (problemless_alter _ _ _).bind
    intro pins
    apply problemless_pure

/-- On an empty stack the walk goes on with the next pin, or the selection gives a fault. -/
theorem Passes.next_of_nil {next moves : Nat} {w : Walk} (h : Passes b g t c next moves w)
    (hstack : w.stack = []) (hnext : next < b.pins.size) :
  (∃ w', Passes b g t c (next + 1) moves w')
    ∨ ∃ e, selectWithin b g t c (moveBound b) = .error (.fault e)
  := by
  have hselect := selectWithin_of_passes h
  rw [resume_of_nil hstack hnext] at hselect
  cases hv : entry w.visit next with
  | error e =>
    right
    obtain ⟨e, rfl⟩ := (problemless_entry _ _).exists_fault hv
    use e
    rw [hselect, hv, error_bind]
  | ok v =>
    have hvisit := entry_eq_ok_iff.mp hv
    by_cases hne : v = .unvisited
    · rw [hne] at hvisit
      rw [hv, ok_bind, if_pos hne] at hselect
      cases hpush : w.push b c next with
      | error e =>
        right
        obtain ⟨e, rfl⟩ := (problemless_push _ _).exists_fault hpush
        use e
        rw [hselect, hpush, error_bind]
      | ok w' =>
        left
        use w'
        apply Passes.enter h hstack hnext hvisit hpush
    · left
      use w
      apply Passes.pass h hstack hnext hvisit hne

/-- The pin on top of the stack makes a move, is stopped by the problem that the selection gives,
or the selection gives a fault. -/
theorem Passes.next_of_cons {next moves : Nat} {w : Walk} {f : Frame} {below : List Frame}
    (h : Passes b g t c next (moves + 1) w) (hstack : w.stack = f :: below) :
  (∃ w', Passes b g t c next moves w')
    ∨ (∃ p, f.move b g t c w = .error (.problem p)
      ∧ selectWithin b g t c (moveBound b) = .error (.problem p))
    ∨ ∃ e, selectWithin b g t c (moveBound b) = .error (.fault e)
  := by
  have hselect := selectWithin_of_passes h
  rw [resume_of_cons hstack] at hselect
  cases hmove : f.move b g t c w with
  | error e =>
    right
    rw [hmove, error_bind] at hselect
    cases e with
    | problem p =>
      left
      use p
    | fault e =>
      right
      use e
  | ok m =>
    rw [hmove, ok_bind] at hselect
    cases happly : w.apply b c f below m with
    | error e =>
      right; right
      obtain ⟨e, rfl⟩ := (problemless_apply _ _ _ _).exists_fault happly
      use e
      rw [hselect, happly, error_bind]
    | ok w' =>
      left
      use w'
      apply Passes.move h hstack hmove happly

/-- The walk comes to its end: it has dealt with all pins, a pin is stopped by the problem that
the selection gives, or the selection gives a fault. -/
theorem Passes.ends {next moves : Nat} {w : Walk} (h : Passes b g t c next moves w)
    (hnext : next ≤ b.pins.size) :
  (∃ moves w, Passes b g t c b.pins.size moves w ∧ w.stack = []
      ∧ selectWithin b g t c (moveBound b) = .ok w.pins)
    ∨ (∃ next moves w f below p, Passes b g t c next moves w ∧ w.stack = f :: below
      ∧ f.move b g t c w = .error (.problem p)
      ∧ selectWithin b g t c (moveBound b) = .error (.problem p))
    ∨ ∃ e, selectWithin b g t c (moveBound b) = .error (.fault e)
  := by
  -- each step takes a move or a pin off what is left
  induction hn : b.pins.size - next + moves using Nat.strongRecOn
    generalizing next moves w with
  | _ n ih =>
    cases hstack : w.stack with
    | nil =>
      rcases Nat.eq_or_lt_of_le hnext with rfl | hlt
      · left
        use moves, w, h, hstack
        rw [selectWithin_of_passes h, resume_of_end hstack]
      · rcases h.next_of_nil hstack hlt with ⟨w', h'⟩ | hfault
        · apply ih _ _ h' hlt rfl
          omega
        · right; right
          apply hfault
    | cons f below =>
      cases moves with
      | zero =>
        right; right
        use .endless
        rw [selectWithin_of_passes h, resume, Walk.drain, hstack]
        rfl
      | succ moves =>
        rcases h.next_of_cons hstack with ⟨w', h'⟩ | ⟨p, hmove, hselect⟩ | hfault
        · apply ih _ _ h' hnext rfl
          omega
        · right; left
          use next, moves + 1, w, f, below, p
        · right; right
          apply hfault

/-- A selection that gives the states of pins has dealt with all pins. -/
theorem exists_passes_of_ok {pins : Array PinState}
    (h : selectWithin b g t c (moveBound b) = .ok pins) :
  ∃ moves w, Passes b g t c b.pins.size moves w ∧ w.stack = [] ∧ w.pins = pins
  := by
  rcases Passes.start.ends (Nat.zero_le _) with ⟨moves, w, hw, hstack, hselect⟩
    | ⟨next, moves, w, f, below, p, hw, hstack, hmove, hselect⟩ | ⟨e, hselect⟩
  · rw [hselect] at h
    use moves, w, hw, hstack, Except.ok.inj h
  · rw [hselect] at h
    cases h
  · rw [hselect] at h
    cases h

/-- A selection that gives a problem has come to a pin that is stopped by it. -/
theorem exists_passes_of_problem {p : Problem}
    (h : selectWithin b g t c (moveBound b) = .error (.problem p)) :
  ∃ next moves w f below, Passes b g t c next moves w ∧ w.stack = f :: below
    ∧ f.move b g t c w = .error (.problem p)
  := by
  rcases Passes.start.ends (Nat.zero_le _) with ⟨moves, w, hw, hstack, hselect⟩
    | ⟨next, moves, w, f, below, p, hw, hstack, hmove, hselect⟩ | ⟨e, hselect⟩
  · rw [hselect] at h
    cases h
  · rw [hselect] at h
    cases h
    use next, moves, w, f, below
  · rw [hselect] at h
    cases h

end RoutingFabric.Cluster
