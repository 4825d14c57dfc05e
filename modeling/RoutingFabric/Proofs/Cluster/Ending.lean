import RoutingFabric.Proofs.BlockGraph.Names
import RoutingFabric.Proofs.Cluster.Faults
import RoutingFabric.Proofs.Cluster.Stale

/-!
# The walk ends

Told as moves one after another, without a number of them that is allowed, the walk makes at most
two moves for each pin and one for each edge that may drive a pin, and puts no pin on the stack
twice. It halts once all pins are done, or at a pin that a problem stops. The problem names the pin,
so the walk has no end where the name has none. Any number of moves that suffices leads to where the
walk halts, and what is known of the cluster is replaced only once nothing can fail any more.
-/

namespace RoutingFabric.Cluster

open BlockGraph

/-! ### Moves one after another -/

/-- The pins that a move puts on the stack. -/
def Move.pushed : Move → List PinId
  | .descend id => [id]
  | .skip => []
  | .finish _ _ _ => []

section

variable (b : BlockGraph) (g : RoutingGraph) (t : NetTable) (c : Cluster)

/-- The walk arrives at the state in so many moves, with the pins before `next` started from. It has
put these pins on the stack, the last one first. -/
inductive Arrives : (next steps : Nat) → (pushed : List PinId) → Walk → Prop
  /-- nothing is done yet -/
  | start : Arrives 0 0 [] (Walk.start b.pins.size)
  /-- the next pin has been dealt with -/
  | pass {next steps : Nat} {pushed : List PinId} {w : Walk} {v : Visit}
    (before : Arrives next steps pushed w) (stack : w.stack = []) (bound : next < b.pins.size)
    (visit : w.visit[next]? = some v) (ne : v ≠ .unvisited) :
    Arrives (next + 1) steps pushed w
  /-- the walk starts from the next pin -/
  | enter {next steps : Nat} {pushed : List PinId} {w w' : Walk}
    (before : Arrives next steps pushed w) (stack : w.stack = []) (bound : next < b.pins.size)
    (visit : w.visit[next]? = some .unvisited) (push : w.push b c next = .ok w') :
    Arrives (next + 1) steps (next :: pushed) w'
  /-- the pin on top of the stack makes a move -/
  | move {next steps : Nat} {pushed : List PinId} {w w' : Walk} {f : Frame} {below : List Frame}
    {m : Move} (before : Arrives next steps pushed w) (stack : w.stack = f :: below)
    (move : f.move b g t c w = .ok m) (apply : w.apply b c f below m = .ok w') :
    Arrives next (steps + 1) (m.pushed ++ pushed) w'

/-- In the state the walk halts, with this result. -/
inductive Halts : (next : Nat) → Walk → Outcome (Array PinState) → Prop
  /-- all pins are done -/
  | done {w : Walk} (stack : w.stack = []) : Halts b.pins.size w (.ok w.pins)
  /-- a problem stops the pin on top of the stack -/
  | problem {next : Nat} {w : Walk} {f : Frame} {below : List Frame} {p : Problem}
    (stack : w.stack = f :: below) (move : f.move b g t c w = .error (.problem p)) :
    Halts next w (.error (.problem p))
  /-- a problem is to stop the pin on top of the stack, whose name has no end -/
  | endless {next : Nat} {w : Walk} {f : Frame} {below : List Frame} {p : Pin}
    (stack : w.stack = f :: below) (pin : b.pins[f.pin]? = some p) (looped : b.Looped p.block)
    (move : f.move b g t c w = fault .endless) :
    Halts next w (fault .endless)

/-- The cluster has been prepared on a graph with no more nodes, and at most annotated since. -/
structure Prepared : Prop where
  origin : ∃ g₀ nets c₀ c₁, (prepare b g₀ nets).Gives c₀ () c₁ ∧ g₀.size ≤ g.size
    ∧ c.unannotated = c₁.unannotated
  size : c.locals.pins.size = b.pins.size

end

variable {b : BlockGraph} {g : RoutingGraph} {t : NetTable} {c : Cluster}
variable {next steps : Nat} {pushed : List PinId} {w : Walk}

/-- A prepared cluster is checked. -/
theorem Prepared.exists_checked (h : Prepared b g c) : ∃ nets, Checked b g.size nets c := by
  obtain ⟨g₀, nets, c₀, c₁, hprepare, hle, hsame⟩ := h.origin
  have hc := checked_of_prepare hprepare
  have hforwards := congr_of_unannotated_eq (·.routeThroughs) (fun _ => rfl) hsame
  have hassigned := congr_of_unannotated_eq (·.pinNets) (fun _ => rfl) hsame
  have hbound := congr_of_unannotated_eq (·.locals.bindings) (fun _ => rfl) hsame
  use nets
  constructor
  case forwards =>
    rw [hforwards]
    apply hc.forwards
  case assigned =>
    rw [hassigned]
    apply hc.assigned
  case bound =>
    rw [hbound]
    intro x hx
    obtain ⟨hpin, hnode⟩ := hc.bound x hx
    exact ⟨hpin, hnode.trans_le hle⟩
  case size => apply h.size

/-! ### How far the walk gets -/

/-- The moves that are allowed suffice for what the walk arrives at. -/
theorem Arrives.exists_passes (h : Arrives b g t c next steps pushed w) :
  ∃ moves, moves + steps = moveBound b ∧ Passes b g t c next moves w
  := by
  induction h with
  | start =>
    use moveBound b, rfl
    apply Passes.start
  | pass before stack bound visit ne ih =>
    obtain ⟨moves, hmoves, hpasses⟩ := ih
    use moves, hmoves
    apply Passes.pass hpasses stack bound visit ne
  | enter before stack bound visit push ih =>
    obtain ⟨moves, hmoves, hpasses⟩ := ih
    use moves, hmoves
    apply Passes.enter hpasses stack bound visit push
  | move before stack move apply ih =>
    obtain ⟨moves, hmoves, hpasses⟩ := ih
    have hpos := hpasses.moves_pos (by rw [stack]; apply List.cons_ne_nil)
    obtain ⟨moves, rfl⟩ := Nat.exists_eq_add_one.mpr hpos
    use moves
    constructor
    · omega
    · apply Passes.move hpasses stack move apply

/-- All states that the walk arrives at have the invariant. -/
theorem Arrives.inv (h : Arrives b g t c next steps pushed w) : w.Inv b g c := by
  obtain ⟨moves, -, hpasses⟩ := h.exists_passes
  apply hpasses.inv

/-- The walk makes no more moves than two for each pin and one for each edge that may drive it, and
a pin on the stack has one of these left. -/
theorem Arrives.steps_le (h : Arrives b g t c next steps pushed w) :
  steps + w.stack.length ≤ stepBound b c
  := by
  obtain ⟨moves, hmoves, hpasses⟩ := h.exists_passes
  have hwork := hpasses.work_le
  have hlength := length_stack_le_work b c w
  omega

/-- A pin on the stack is being dealt with. -/
theorem dealt_of_push {w' : Walk} {id : PinId} (hid : w.visit[id]? = some .unvisited)
    (h : w.push b c id = .ok w') :
  w'.Dealt id
  := by
  apply Walk.dealt_of_visiting
  rw [visit_of_push hid h, if_pos rfl]

/-- A pin that has not been dealt with is added to distinct ones that have. -/
theorem nodup_and_dealt_of_push {w' : Walk} {id : PinId} (hid : w.visit[id]? = some .unvisited)
    (h : w.push b c id = .ok w') (hpushed : pushed.Nodup ∧ ∀ q ∈ pushed, w.Dealt q) :
  (id :: pushed).Nodup ∧ ∀ q ∈ id :: pushed, w'.Dealt q
  := by
  obtain ⟨hnodup, hdealt⟩ := hpushed
  constructor
  · apply hnodup.cons
    intro hmem
    obtain ⟨v, hv, hne⟩ := hdealt id hmem
    rw [hid] at hv
    cases hv
    contradiction
  · intro q hq
    rcases List.mem_cons.mp hq with rfl | hq
    · apply dealt_of_push hid h
    · apply (extends_of_push hid h).dealt q (hdealt q hq)

/-- The walk has put no pin on the stack twice, and has dealt with all that it put there. -/
theorem Arrives.nodup_and_dealt (h : Arrives b g t c next steps pushed w) :
  pushed.Nodup ∧ ∀ id ∈ pushed, w.Dealt id
  := by
  induction h with
  | start =>
    constructor
    · apply List.nodup_nil
    · intro id hid
      cases hid
  | pass before stack bound visit ne ih => apply ih
  | enter before stack bound visit push ih => apply nodup_and_dealt_of_push visit push ih
  | @move next steps pushed w w' f below m before stack move apply ih =>
    have hmoves := Frame.moves_of_move move
    have hextends := before.inv.extends stack hmoves apply
    have hkept : pushed.Nodup ∧ ∀ id ∈ pushed, w'.Dealt id :=
      ⟨ih.1, fun id hid => hextends.dealt id (ih.2 id hid)⟩
    cases m with
    | descend id => apply nodup_and_dealt_of_push hmoves.unvisited_of_descend apply ih
    | skip => apply hkept
    | finish selected resolved isOpen => apply hkept

/-- The pins that the walk has put on the stack are pins of the type. -/
theorem Arrives.lt_of_mem_pushed (h : Arrives b g t c next steps pushed w) {id : PinId}
    (hid : id ∈ pushed) :
  id < b.pins.size
  := by
  obtain ⟨v, hv, -⟩ := h.nodup_and_dealt.2 id hid
  apply h.inv.lt_of_visit hv

/-! ### Where the walk halts -/

/-- On an empty stack the walk goes on with the next pin. -/
theorem Arrives.next_of_nil (h : Arrives b g t c next steps pushed w) (hb : b.Closed)
    (hstack : w.stack = []) (hnext : next < b.pins.size) :
  ∃ pushed' w', Arrives b g t c (next + 1) steps pushed' w'
  := by
  obtain ⟨v, hv⟩ := (problemless_entry _ _).exists_ok (h.inv.faultsIn_visit hnext)
  rw [entry_eq_ok_iff] at hv
  by_cases hne : v = .unvisited
  · rw [hne] at hv
    obtain ⟨w', hpush⟩ := (problemless_push w next).exists_ok (h.inv.faultsIn_push hb hnext)
    use next :: pushed, w'
    apply Arrives.enter h hstack hnext hv hpush
  · use pushed, w
    apply Arrives.pass h hstack hnext hv hne

/-- The pin on top of the stack makes a move, or the walk halts at it. -/
theorem Arrives.next_of_cons {nodes : Nat} {f : Frame} {below : List Frame}
    (h : Arrives b g t c next steps pushed w) (hb : b.Closed) (hc : Checked b g.size nodes c)
    (hstack : w.stack = f :: below) :
  (∃ pushed' w', Arrives b g t c next (steps + 1) pushed' w') ∨ ∃ r, Halts b g t c next w r
  := by
  have hf : f ∈ w.stack := by
    rw [hstack]
    apply List.mem_cons_self
  cases hmove : f.move b g t c w with
  | ok m =>
    left
    obtain ⟨w', happly⟩ := (problemless_apply w f below m).exists_ok
      (h.inv.faultsIn_apply hb hf (Frame.moves_of_move hmove))
    use m.pushed ++ pushed, w'
    apply Arrives.move h hstack hmove happly
  | error e =>
    right
    cases e with
    | problem p =>
      use .error (.problem p)
      apply Halts.problem hstack hmove
    | fault e =>
      obtain ⟨p, hp⟩ : ∃ p, b.pins[f.pin]? = some p :=
        ⟨_, Array.getElem?_eq_getElem (h.inv.lt_of_mem_stack hf)⟩
      have hname : FaultsIn (fun e => e = .endless ∧ b.Looped p.block) (b.pinName f.pin) := by
        apply hb.faultsIn_pinName_looped hp
        intro hlooped
        exact ⟨rfl, hlooped⟩
      obtain ⟨rfl, hlooped⟩ := (h.inv.faultsIn_move hb hc hf hname).property e hmove
      use fault .endless
      apply Halts.endless hstack hp hlooped hmove

/-- From each state that it arrives at the walk goes on to one where it halts. -/
theorem Arrives.exists_halts {nodes : Nat} (h : Arrives b g t c next steps pushed w)
    (hb : b.Closed) (hc : Checked b g.size nodes c) (hnext : next ≤ b.pins.size) :
  ∃ next steps pushed w r, Arrives b g t c next steps pushed w ∧ Halts b g t c next w r
  := by
  -- each step takes a move or a pin off what is left
  induction hn : b.pins.size - next + (stepBound b c - steps) using Nat.strongRecOn
    generalizing next steps pushed w with
  | _ n ih =>
    cases hstack : w.stack with
    | nil =>
      rcases Nat.eq_or_lt_of_le hnext with rfl | hlt
      · use b.pins.size, steps, pushed, w, .ok w.pins, h
        apply Halts.done hstack
      · obtain ⟨pushed', w', h'⟩ := h.next_of_nil hb hstack hlt
        apply ih _ _ h' hlt rfl
        omega
    | cons f below =>
      rcases h.next_of_cons hb hc hstack with ⟨pushed', w', h'⟩ | ⟨r, hhalts⟩
      · have hle := h.steps_le
        rw [hstack, List.length_cons] at hle
        apply ih _ _ h' hnext rfl
        omega
      · use next, steps, pushed, w, r

/-! ### Moves that are allowed -/

/-- Where more moves are allowed than the walk makes to a state, the selection gives what it goes on
to from there. -/
theorem Arrives.selectWithin_eq (h : Arrives b g t c next steps pushed w) (left : Nat) :
  selectWithin b g t c (left + steps) = resume b g t c next left w
  := by
  induction h generalizing left with
  | start =>
    rw [selectWithin, resume, drain_of_nil rfl, List.range_eq_range']
    rfl
  | pass before stack bound visit ne ih =>
    rw [ih, resume_of_nil stack bound, entry_eq_ok_iff.mpr visit, ok_bind, if_neg ne]
  | enter before stack bound visit push ih =>
    rw [ih, resume_of_nil stack bound, entry_eq_ok_iff.mpr visit, ok_bind, if_pos rfl, push,
      ok_bind]
  | @move next steps pushed w w' f below m before stack move apply ih =>
    have hleft : left + (steps + 1) = left + 1 + steps := by omega
    rw [hleft, ih, resume_of_cons stack, move, ok_bind, apply, ok_bind]

/-- Where the walk halts the selection gives the result, if a move is left for the pin on top of
the stack. -/
theorem Halts.resume_eq {r : Outcome (Array PinState)} (h : Halts b g t c next w r) {left : Nat}
    (hleft : w.stack.length ≤ left) :
  resume b g t c next left w = r
  := by
  have hcons : ∀ {f below}, w.stack = f :: below → ∃ more, left = more + 1 := by
    intro f below hstack
    rw [hstack, List.length_cons] at hleft
    use left - 1
    omega
  cases h with
  | done stack => apply resume_of_end stack
  | problem stack move =>
    obtain ⟨more, rfl⟩ := hcons stack
    rw [resume_of_cons stack, move, error_bind]
  | endless stack pin looped move =>
    obtain ⟨more, rfl⟩ := hcons stack
    rw [resume_of_cons stack, move]
    rfl

/-- All numbers of moves that suffice for the pins and edges lead to where the walk halts. -/
theorem Arrives.selectWithin_of_halts {r : Outcome (Array PinState)}
    (h : Arrives b g t c next steps pushed w) (hhalts : Halts b g t c next w r) {budget : Nat}
    (hbudget : stepBound b c ≤ budget) :
  selectWithin b g t c budget = r
  := by
  have hle := h.steps_le
  have hleft : budget = budget - steps + steps := by omega
  rw [hleft, h.selectWithin_eq]
  apply hhalts.resume_eq
  omega

/-! ### The cluster -/

/-- A selection that is stopped leaves the cluster as it was. -/
theorem state_of_error {e : Stop} (h : ((selectLocalDrivers b g t).run c).outcome = .error e) :
  ((selectLocalDrivers b g t).run c).state = c
  := by
  rw [selectLocalDrivers, Phase.run_bind_of_ok (Phase.run_state c)] at h ⊢
  cases hpins : selectWithin b g t c (moveBound b) with
  | error e => rw [Phase.run_bind_of_error (Phase.run_lift (.error e) c)]
  | ok pins =>
    rw [hpins] at h
    rw [Phase.run_bind_of_ok (Phase.run_lift (.ok pins) c)] at h ⊢
    cases horder : propagationOrder b c pins with
    | error e => rw [Phase.run_bind_of_error (Phase.run_lift (.error e) c)]
    | ok order =>
      -- nothing that follows can be stopped
      rw [horder, Phase.run_bind_of_ok (Phase.run_lift (.ok order) c)] at h
      cases h

/-- In a prepared cluster of a valid type the walk makes no more moves than two for each pin and one
for each edge that may drive a pin, and puts no pin on the stack twice. It halts: with all pins
done, at a problem, or at a pin in or below a loop of blocks, for which looking for the name that a
problem needs has no end. So does the selection, within any number of moves that is no smaller, and
it leaves the cluster as it was where it is stopped. -/
theorem selection_ends (hb : b.validate = .ok ()) (hc : Prepared b g c) (t : NetTable) :
  (∀ next steps pushed w, Arrives b g t c next steps pushed w →
      steps + w.stack.length ≤ stepBound b c ∧ pushed.Nodup ∧ ∀ id ∈ pushed, id < b.pins.size)
    ∧ (∃ next steps pushed w r, Arrives b g t c next steps pushed w ∧ Halts b g t c next w r
      ∧ (∀ budget, stepBound b c ≤ budget → selectWithin b g t c budget = r)
      ∧ ((selectLocalDrivers b g t).run c).outcome
        = (r >>= fun pins => propagationOrder b c pins >>= fun _ => .ok ()))
    ∧ ∀ e, ((selectLocalDrivers b g t).run c).outcome = .error e →
      ((selectLocalDrivers b g t).run c).state = c
  := by
  have hclosed := closed_of_validate hb
  obtain ⟨nets, hchecked⟩ := hc.exists_checked
  refine ⟨?_, ?_, ?_⟩
  · intro next steps pushed w h
    exact ⟨h.steps_le, h.nodup_and_dealt.1, fun id => h.lt_of_mem_pushed⟩
  · have hstart : Arrives b g t c 0 0 [] (Walk.start b.pins.size) := Arrives.start
    obtain ⟨next, steps, pushed, w, r, h, hhalts⟩ :=
      hstart.exists_halts hclosed hchecked (Nat.zero_le _)
    have hselect : ∀ budget, stepBound b c ≤ budget → selectWithin b g t c budget = r :=
      fun budget => h.selectWithin_of_halts hhalts
    use next, steps, pushed, w, r, h, hhalts, hselect
    rw [outcome_selectLocalDrivers, hselect _ (stepBound_le_moveBound b c)]
  · intro e
    apply state_of_error

/-! ### A pin that misses its driver -/

/-- An element with an input that is wired to an input of the cluster, in a block whose parent is
the given one. -/
def strandedGraph (above : BlockId) : BlockGraph where
  name := "clb"
  blocks := #[
    { name := "clb", type := "clb", modes := [⟨"default", [1], [0]⟩], pins := [1] },
    { name := "ble[0]", type := "ble", parent := some (above, 0), depth := 1,
      modes := [⟨"default", [], []⟩], pins := [0] }]
  pins := #[
    { block := 1, port := "in", bit := 0, kind := .input, inputs := [0] },
    { block := 0, port := "I", bit := 0, kind := .input, outputs := [0] }]
  edges := #[⟨1, 0, 0⟩]
  interconnects := #[{ name := "in", kind := .wire, owner := 0, mode := 0, edges := [0] }]

/-- The net of the element, and that of the cluster input. -/
def strandedNets : NetTable where
  nets := #[{ name := "x", logical := 0 }, { name := "y", logical := 1 }]
  logicals := #[⟨"x"⟩, ⟨"y"⟩]

/-- The element is assigned another net than the cluster input. -/
def strandedCluster : Cluster where
  name := "c0"
  blockGraph := 0
  place := ⟨0, 0⟩
  modes := #[some 0, some 0]
  pinNets := #[some 0, some 1]
  locals := Local.blank 2

/-- The cluster is prepared, whatever the parent of the element. -/
theorem prepared_stranded (above : BlockId) :
  Prepared (strandedGraph above) {} strandedCluster
  := by
  constructor
  · use {}, 2, strandedCluster, strandedCluster
    refine ⟨⟨rfl, rfl⟩, ?_, rfl⟩
    apply Nat.le_refl
  · rfl

/-- Below the root the element is reported, within five moves. -/
theorem stranded_ends :
  (strandedGraph 0).validate = .ok () ∧ Prepared (strandedGraph 0) {} strandedCluster
    ∧ stepBound (strandedGraph 0) strandedCluster = 5
    ∧ (∃ next steps pushed w,
      Arrives (strandedGraph 0) {} strandedNets strandedCluster next steps pushed w
        ∧ Halts (strandedGraph 0) {} strandedNets strandedCluster next w
          (.error (.problem (.missingLocalDriver "c0" "clb.ble[0].in[0]" "x" 1))))
    ∧ ((selectLocalDrivers (strandedGraph 0) {} strandedNets).run strandedCluster).state
      = strandedCluster
  := by
  have hvalid : (strandedGraph 0).validate = .ok () := by decide +kernel
  have hbound : stepBound (strandedGraph 0) strandedCluster = 5 := by decide +kernel
  obtain ⟨-, ⟨next, steps, pushed, w, r, h, hhalts, hselect, houtcome⟩, hstate⟩ :=
    selection_ends hvalid (prepared_stranded 0) strandedNets
  obtain rfl : .error (.problem (.missingLocalDriver "c0" "clb.ble[0].in[0]" "x" 1)) = r := by
    rw [← hselect 5 (Nat.le_of_eq hbound)]
    decide +kernel
  refine ⟨hvalid, prepared_stranded 0, hbound, ⟨next, steps, pushed, w, h, hhalts⟩, ?_⟩
  apply hstate _ houtcome

/-- Below a block that is its own parent the element is not reported, since looking for its name has
no end. -/
theorem endless_stranded :
  (strandedGraph 1).validate = .ok () ∧ Prepared (strandedGraph 1) {} strandedCluster
    ∧ (strandedGraph 1).pinName 0 = fault .endless
    ∧ (∀ budget,
      selectWithin (strandedGraph 1) {} strandedNets strandedCluster budget = fault .endless)
    ∧ ((selectLocalDrivers (strandedGraph 1) {} strandedNets).run strandedCluster).outcome
      = fault .endless
  := by
  refine ⟨by decide +kernel, prepared_stranded 1, by decide +kernel, ?_, by decide +kernel⟩
  intro budget
  match budget with
  | 0 | 1 | 2 | 3 => decide +kernel
  | more + 4 => rfl

end RoutingFabric.Cluster
