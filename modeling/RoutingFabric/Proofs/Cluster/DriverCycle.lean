import RoutingFabric.BlockGraph.Validity
import RoutingFabric.Cluster.Binding
import RoutingFabric.Proofs.Cluster.Selection
import RoutingFabric.Proofs.Cluster.Sorted
import RoutingFabric.Proofs.Cluster.Trail
import RoutingFabric.Proofs.Cluster.Work

/-!
# When drivers form a cycle

The selection reports a cycle of drivers at a pin without a known net whose first edge comes from
a pin that waits for it and has to take its own first edge as well, or at a pin that copies from
itself once all drivers are selected. In the second case every pin of the cycle has to take its
net from the next one. In the first case a pin with a known net may be in between, which would
have gone on to another edge.
-/

namespace RoutingFabric.Cluster

variable (b : BlockGraph) (g : RoutingGraph) (t : NetTable) (c : Cluster)

/-- The pin on top of the stack has no known net, and its first edge comes from a pin that waits
and has to take its own first edge as well. -/
structure Caught (w : Walk) (f : Frame) : Prop where
  top : ∃ below, w.stack = f :: below
  known : knownNet b g c f.pin = .ok none
  first : ∃ i rest, f.inputs = i :: rest ∧ w.visit[i.source]? = some .visiting
    ∧ pendingNet b g c i.source = .ok none

/-- Where the pin has to take its net from, there is a pin that has a choice, and may choose to
take its net from the first. -/
def Snared (id : PinId) : Prop :=
  ∃ k, Chooses b g c k ∧ Relation.ReflTransGen (Forced b g c) id k
    ∧ Relation.TransGen (Wants b g c) k id

variable {b g t c}

/-! ### Pins that are caught -/

/-- A pin is stopped by a cycle only if it is caught. -/
theorem caught_of_move {w : Walk} {f : Frame} {below : List Frame} {cluster pin : String}
    (hstack : w.stack = f :: below)
    (h : f.move b g t c w = .error (.problem (.localDriverCycle cluster pin))) :
  Caught b g c w f ∧ cluster = c.name ∧ b.pinName f.pin = .ok pin
  := by
  rw [Frame.move] at h
  rcases bind_eq_error_iff.mp h with h | ⟨known, hknown, h⟩
  · cases problemless_knownNet f.pin _ h
  cases hinputs : f.inputs with
  | nil =>
    rw [hinputs] at h
    cases f.problemless_moveIdle w known _ h
  | cons first rest =>
    rw [hinputs] at h
    cases known with
    | some net =>
      obtain ⟨name, -, -, hp⟩ := Frame.problem_of_moveKnown h
      cases hp
    | none =>
      obtain ⟨name, hvisit, hpending, hname, hp⟩ := Frame.problem_of_moveFree h
      cases hp
      constructor
      · constructor
        case top => use below
        case known => apply hknown
        case first => use first, rest
      · use rfl

/-- A pin that is caught is stopped. -/
theorem Caught.move_eq_cycle {w : Walk} {f : Frame} (h : Caught b g c w f) {pin : String}
    (hname : b.pinName f.pin = .ok pin) :
  f.move b g t c w = .error (.problem (.localDriverCycle c.name pin))
  := by
  obtain ⟨i, rest, hinputs, hvisit, hpending⟩ := h.first
  rw [Frame.move, h.known, hinputs, ok_bind]
  change f.moveFree b g c w i = _
  rw [Frame.moveFree, entry_eq_ok_iff.mpr hvisit, ok_bind]
  simp only [hpending, hname, ok_bind]
  rfl

/-- Where the walk passes a state in which a pin is caught, the selection reports a cycle. -/
theorem Passes.cycle_of_caught {next moves : Nat} {w : Walk} {f : Frame}
    (h : Passes b g t c next moves w) (hcaught : Caught b g c w f) {pin : String}
    (hname : b.pinName f.pin = .ok pin) :
  selectWithin b g t c (moveBound b) = .error (.problem (.localDriverCycle c.name pin))
  := by
  obtain ⟨below, hstack⟩ := hcaught.top
  have hpos := h.moves_pos (by simp [hstack])
  obtain ⟨moves, rfl⟩ := Nat.exists_eq_succ_of_ne_zero hpos.ne'
  rw [selectWithin_of_passes h, resume_of_cons hstack, hcaught.move_eq_cycle hname, error_bind]

/-- A pin that is caught has to take its net from itself, or is snared. -/
theorem Passes.forced_or_snared {next moves : Nat} {w : Walk} {f : Frame}
    (h : Passes b g t c next moves w) (hcaught : Caught b g c w f) :
  Relation.TransGen (Forced b g c) f.pin f.pin ∨ Snared b g c f.pin
  := by
  obtain ⟨below, hstack⟩ := hcaught.top
  obtain ⟨i, rest, hinputs, hvisit, -⟩ := hcaught.first
  have hwired := h.inv.wired f (by simp [hstack])
  rw [hinputs] at hwired
  have hfirst := Forced.first hcaught.known hwired
  obtain ⟨f', hf', hsource⟩ := (h.inv.waiting _).mp hvisit
  have hwants : Relation.ReflTransGen (Wants b g c) i.source f.pin := by
    apply h.wants_top hstack
    rw [← hsource]
    apply List.mem_map_of_mem hf'
  rcases forced_or_chooses hwants with hforced | ⟨k, hk, hforced, hback⟩
  · left
    apply Relation.TransGen.head' hfirst hforced
  · right
    use k, hk, Relation.ReflTransGen.head hfirst hforced

/-! ### Pins that copy from themselves -/

/-- As the walk goes on, a pin with a choice that is done comes to copy from itself at most if it
did before. -/
theorem Walk.Inv.cycle_back {w w' : Walk} (hw : w.Inv b g c) (h : w.Extends w') {id : PinId}
    (hdone : w.visit[id]? = some .done) (hid : Chooses b g c id)
    (hcycle : Relation.TransGen (Copies b c w'.pins) id id) :
  Relation.TransGen (Copies b c w.pins) id id
  := by
  obtain ⟨q, hq, hback⟩ := Relation.TransGen.head'_iff.mp hcycle
  rw [h.copies_iff hdone] at hq
  apply Relation.TransGen.head' hq
  apply h.way_back _ hback
  apply (hw.settled id hdone).done_of_chooses hid hq

/-- A pin with a choice does not come to copy from itself when it is finished. -/
theorem Walk.Inv.acyclic_of_finish {w w' : Walk} (hw : w.Inv b g c) {f : Frame}
    {below : List Frame} {selected : Option LocalDriver} {resolved : Option NetId} {isOpen : Bool}
    (hstack : w.stack = f :: below) (hmoves : f.Moves b g c w (.finish selected resolved isOpen))
    (h : w.apply b c f below (.finish selected resolved isOpen) = .ok w')
    (hid : Chooses b g c f.pin) :
  ¬ Relation.TransGen (Copies b c w'.pins) f.pin f.pin
  := by
  have hf : f ∈ w.stack := by simp [hstack]
  have hvisit := (hw.waiting f.pin).mpr ⟨f, hf, rfl⟩
  have hwired := hw.wired f hf
  obtain ⟨hstate, -⟩ := hw.state_of_finish hvisit h
  obtain ⟨net, inputs, hknown, hinputs, hne⟩ := hid
  cases hmoves with
  | idle _ idle => simp_all
  | freeWaiting known => simp_all
  | freeDone known => simp_all
  | take _ next visit _ pending =>
    have hnone := dependsOnPending_eq_false (hw.visits.trans hw.states.symm) pending
    intro hcycle
    obtain ⟨q, hq, hback⟩ := Relation.TransGen.head'_iff.mp hcycle
    rw [(copies_of_selected hstate rfl q).mp hq] at hback
    -- the pin waited still when its source was found to meet pins that are done only
    have hway := (extends_of_finish hvisit h).way_back
      (fun _ hq => hw.done_of_copies visit hnone hq) hback
    have hdone := hw.done_of_copies visit hnone hway
    rw [hvisit] at hdone
    cases hdone

/-- In all states that the walk passes, no pin with a choice that is done copies from itself. -/
theorem Passes.acyclic_of_chooses {next moves : Nat} {w : Walk} (h : Passes b g t c next moves w)
    {id : PinId} (hdone : w.visit[id]? = some .done) (hid : Chooses b g c id) :
  ¬ Relation.TransGen (Copies b c w.pins) id id
  := by
  induction h with
  | start => simp [Walk.start, Array.getElem?_replicate] at hdone
  | pass before stack bound visit ne ih => apply ih hdone
  | enter before stack bound visit push ih =>
    intro hcycle
    rw [visit_of_push visit push] at hdone
    split at hdone
    · cases hdone
    · apply ih hdone
      apply before.inv.cycle_back (extends_of_push visit push) hdone hid hcycle
  | @move next moves w w' f below m before stack move apply ih =>
    have hmoves := Frame.moves_of_move move
    have hextends := before.inv.extends stack hmoves apply
    cases m with
    | descend q =>
      rw [visit_of_push hmoves.unvisited_of_descend apply] at hdone
      split at hdone
      · cases hdone
      · intro hcycle
        apply ih hdone (before.inv.cycle_back hextends hdone hid hcycle)
    | skip =>
      obtain rfl := pure_eq_ok_iff.mp apply
      apply ih hdone
    | finish selected resolved isOpen =>
      have hvisit := (before.inv.waiting f.pin).mpr ⟨f, by simp [stack], rfl⟩
      rw [visit_of_finish hvisit apply] at hdone
      split at hdone
      · rename_i heq
        rw [heq] at hid ⊢
        apply before.inv.acyclic_of_finish stack hmoves apply hid
      · intro hcycle
        apply ih hdone (before.inv.cycle_back hextends hdone hid hcycle)

/-- Once drivers are selected, every pin of a cycle has to take its net from the next one. -/
theorem forced_of_cycle {pins : Array PinState} (h : selectWithin b g t c (moveBound b) = .ok pins)
    {id : PinId} (hcycle : Relation.TransGen (Copies b c pins) id id) :
  Relation.TransGen (Forced b g c) id id
  := by
  obtain ⟨moves, w, hw, hstack, rfl⟩ := exists_passes_of_ok h
  -- each link lies on the cycle, so its pin has no choice
  have hlink : ∀ p q, Copies b c w.pins p q → Relation.TransGen (Copies b c w.pins) p p →
      Forced b g c p q := by
    intro p q hq hp
    have hlt := hq.lt_size
    rw [hw.inv.states] at hlt
    have hsettled := hw.settled hstack hlt
    rcases hsettled.forced_or_chooses hq with hforced | hchooses
    · apply hforced
    · cases hw.acyclic_of_chooses (hw.done hstack hlt) hchooses hp
  have hway : ∀ q, Relation.TransGen (Copies b c w.pins) id q →
      Relation.ReflTransGen (Copies b c w.pins) q id → Relation.TransGen (Forced b g c) id q := by
    intro q hq
    induction hq with
    | single hq =>
      intro _
      apply Relation.TransGen.single (hlink _ _ hq hcycle)
    | @tail p q hp hq ih =>
      intro hback
      have hback' := Relation.ReflTransGen.head hq hback
      apply (ih hback').tail
      apply hlink p q hq
      apply Relation.TransGen.trans_right hback' hp
  apply hway id hcycle Relation.ReflTransGen.refl

/-! ### The problem of a selection -/

/-- A cycle that the selection reports has been met by the walk, or is there once drivers are
selected. -/
theorem caught_or_cycle {cluster pin : String}
    (h : ((selectLocalDrivers b g t).run c).outcome
      = .error (.problem (.localDriverCycle cluster pin))) :
  (∃ next moves w f, Passes b g t c next moves w ∧ Caught b g c w f ∧ cluster = c.name
      ∧ b.pinName f.pin = .ok pin)
    ∨ ∃ pins id, selectWithin b g t c (moveBound b) = .ok pins
      ∧ Relation.TransGen (Copies b c pins) id id ∧ cluster = c.name ∧ b.pinName id = .ok pin
  := by
  rw [outcome_selectLocalDrivers] at h
  rcases bind_eq_error_iff.mp h with h | ⟨pins, hpins, h⟩
  · left
    obtain ⟨next, moves, w, f, below, hw, hstack, hmove⟩ := exists_passes_of_problem h
    use next, moves, w, f, hw
    apply caught_of_move hstack hmove
  · right
    rcases bind_eq_error_iff.mp h with h | ⟨order, -, h⟩
    · obtain ⟨id, name, hcycle, hname, hp⟩ := cycle_of_propagationOrder h
      cases hp
      use pins, id
    · cases h

/-- Where a pin has to take its net from itself, the selection does not succeed. -/
theorem outcome_ne_ok_of_forced {id : PinId} (h : Relation.TransGen (Forced b g c) id id) :
  ((selectLocalDrivers b g t).run c).outcome ≠ .ok ()
  := by
  intro hok
  obtain ⟨pins, order, hpins, horder, -⟩ := gives_selectLocalDrivers_iff.mp ⟨hok, rfl⟩
  obtain ⟨moves, w, hw, hstack, rfl⟩ := exists_passes_of_ok hpins
  have hcopies : ∀ p q, Forced b g c p q → Copies b c w.pins p q := by
    intro p q hq
    apply (hw.settled hstack hq.lt_size).copies_of_forced hq
  apply acyclic_of_propagationOrder horder id
  apply Relation.TransGen.mono hcopies id id h

/-- A cycle is reported at a pin that has to take its net from itself, or at one that is caught and
snared. It is reported wherever the walk comes to a pin that is caught, and no selection succeeds
where a pin has to take its net from itself. -/
theorem cycle_of_select (b : BlockGraph) (g : RoutingGraph) (t : NetTable) (c : Cluster) :
  (∀ cluster pin, ((selectLocalDrivers b g t).run c).outcome
        = .error (.problem (.localDriverCycle cluster pin)) →
      cluster = c.name ∧ ∃ id, b.pinName id = .ok pin
        ∧ (Relation.TransGen (Forced b g c) id id
          ∨ Snared b g c id ∧ ∃ next moves w f, Passes b g t c next moves w ∧ Caught b g c w f
            ∧ f.pin = id))
    ∧ (∀ next moves w f pin, Passes b g t c next moves w → Caught b g c w f →
      b.pinName f.pin = .ok pin →
      ((selectLocalDrivers b g t).run c).outcome
        = .error (.problem (.localDriverCycle c.name pin)))
    ∧ ∀ id, Relation.TransGen (Forced b g c) id id →
      ((selectLocalDrivers b g t).run c).outcome ≠ .ok ()
  := by
  constructor
  · intro cluster pin h
    rcases caught_or_cycle h with ⟨next, moves, w, f, hw, hcaught, rfl, hname⟩
      | ⟨pins, id, hpins, hcycle, rfl, hname⟩
    · use rfl, f.pin, hname
      rcases hw.forced_or_snared hcaught with hforced | hsnared
      · left
        apply hforced
      · right
        use hsnared, next, moves, w, f
    · use rfl, id, hname
      left
      apply forced_of_cycle hpins hcycle
  constructor
  · intro next moves w f pin hw hcaught hname
    rw [outcome_selectLocalDrivers, hw.cycle_of_caught hcaught hname, error_bind]
  · intro id hforced
    apply outcome_ne_ok_of_forced hforced

/-! ### A cycle that is none -/

/-- Two buffers in a ring, of which the second can also be driven from the input of the block. -/
def ringBlock : BlockGraph where
  name := "ring"
  blocks := #[
    { name := "ring", type := "ring", modes := [⟨"ring", [1, 2], [2, 3]⟩], pins := [0] },
    { name := "buf[0]", type := "buf", parent := some (0, 0), depth := 1,
      modes := [⟨"pass", [], [0]⟩], pins := [1, 2] },
    { name := "buf[1]", type := "buf", parent := some (0, 0), depth := 1,
      modes := [⟨"pass", [], [1]⟩], pins := [3, 4] }]
  pins := #[
    { block := 0, port := "I", bit := 0, kind := .input, boundary := some 0, outputs := [4] },
    { block := 1, port := "in", bit := 0, kind := .input, inputs := [2], outputs := [0] },
    { block := 1, port := "out", bit := 0, kind := .output, inputs := [0], outputs := [3] },
    { block := 2, port := "in", bit := 0, kind := .input, inputs := [3, 4], outputs := [1] },
    { block := 2, port := "out", bit := 0, kind := .output, inputs := [1], outputs := [2] }]
  edges := #[⟨1, 2, 0⟩, ⟨3, 4, 1⟩, ⟨4, 1, 2⟩, ⟨2, 3, 3⟩, ⟨0, 3, 3⟩]
  interconnects := #[
    { name := "through", kind := .wire, owner := 1, mode := 0, edges := [0] },
    { name := "through", kind := .wire, owner := 2, mode := 0, edges := [1] },
    { name := "ring0", kind := .wire, owner := 0, mode := 0, edges := [2] },
    { name := "ring1", kind := .fullMux, owner := 0, mode := 0, edges := [3, 4] }]

/-- The input pin of the block. -/
def ringGraph : RoutingGraph where
  nodes := #[{ kind := .inPin, low := ⟨0, 0⟩, high := ⟨0, 0⟩, ptc := 0, side := some .top }]
  lookup := [0]

/-- The net that enters the block. -/
def ringNets : NetTable where
  nets := #[{ name := "x", logical := 0 }]
  logicals := #[⟨"x"⟩]

/-- The net is known at the input of the second buffer, which is driven from the block then. -/
def ringCluster : Cluster where
  name := "r"
  blockGraph := 0
  place := ⟨0, 0⟩
  modes := #[some 0, some 0, some 0]
  pinNets := #[some 0, none, none, some 0, none]
  locals := { Local.blank 5 with bindings := [(0, 0)] }

/-- The edges of the pins of the ring. -/
def ringInputs : PinId → List Input
  | 1 => [⟨2, 4⟩]
  | 2 => [⟨0, 1⟩]
  | 3 => [⟨3, 2⟩, ⟨4, 0⟩]
  | 4 => [⟨1, 3⟩]
  | _ => []

/-- How far a pin of the ring is from the input of the second buffer. -/
def ringRank : PinId → Nat
  | 4 => 1
  | 1 => 2
  | 2 => 3
  | _ => 0

/-- What a pin of the ring has to take its net from is closer to the input of the second buffer. -/
theorem ringRank_lt_of_forced {id q : PinId} (h : Forced ringBlock ringGraph ringCluster id q) :
  ringRank q < ringRank id
  := by
  have hid : id < 5 := h.lt_size
  cases h with
  | @first i rest known wired =>
    have hinputs : ∀ id < 5, inputsOf ringBlock ringCluster id = .ok (ringInputs id) := by decide
    have hcloser : ∀ id < 5, knownNet ringBlock ringGraph ringCluster id = .ok none →
        ∀ i ∈ (ringInputs id).head?, ringRank i.source < ringRank id := by
      decide
    apply hcloser id hid known
    rw [hinputs id hid] at wired
    rw [Except.ok.inj wired]
    rfl
  | forward wired forwards =>
    have hnone : ∀ id < 5, forwarded ringBlock ringCluster id = .ok none := by decide
    rw [hnone id hid] at forwards
    cases forwards

/-- A cycle is reported at the input of the first buffer, although no pin of the ring has to take
its net from itself. -/
theorem cycle_without_loop :
  ringBlock.validate = .ok ()
    ∧ (prepare ringBlock ringGraph 1).Gives ringCluster () ringCluster
    ∧ (∀ id, ¬ Relation.TransGen (Forced ringBlock ringGraph ringCluster) id id)
    ∧ ((selectLocalDrivers ringBlock ringGraph ringNets).run ringCluster).outcome
      = .error (.problem (.localDriverCycle "r" "ring.buf[0].out[0]"))
  := by
  refine ⟨by decide, by constructor <;> decide, ?_, by decide⟩
  apply not_transGen_of_rank
  intro id q h
  apply ringRank_lt_of_forced h

end RoutingFabric.Cluster
