import RoutingFabric.Proofs.Cluster.Checked
import RoutingFabric.Proofs.Cluster.Selection
import RoutingFabric.Proofs.Cluster.Sorted
import RoutingFabric.Proofs.Cluster.Steady
import RoutingFabric.Proofs.Cluster.Work
import RoutingFabric.Proofs.Safety

/-!
# Faults of the drivers and nets of a cluster

In a checked cluster of a closed type the walk follows only ids that point into its tables, it never
runs out of moves, and neither do the chains that the order of propagation is made of. What is left
is that a problem names a pin whose name has no end.
-/

namespace RoutingFabric.Cluster

open BlockGraph

variable {P : Fault → Prop} {b : BlockGraph} {g : RoutingGraph} {t : NetTable} {c : Cluster}
variable {nodes nets : Nat} {id q : PinId} {w : Walk} {f : Frame}

/-! ### Moves -/

/-- A pin that the walk has met is one of the type. -/
theorem Walk.Inv.lt_of_visit {v : Visit} (hw : w.Inv b g c) (h : w.visit[id]? = some v) :
  id < b.pins.size
  := by
  rw [← hw.visits]
  apply (Array.getElem?_eq_some_iff.mp h).1

/-- A pin of the type has been met by the walk. -/
theorem Walk.Inv.faultsIn_visit (hw : w.Inv b g c) (hid : id < b.pins.size) :
  FaultsIn P (entry w.visit id)
  := by
  apply faultsIn_entry
  rw [hw.visits]
  apply hid

/-- A net is resolved for a pin of the type. -/
theorem Walk.Inv.faultsIn_resolved (hw : w.Inv b g c) (hid : id < b.pins.size) :
  FaultsIn P (entry w.resolved id)
  := by
  apply faultsIn_entry
  rw [hw.nets]
  apply hid

/-- During the walk a pin copies from a pin of the type. -/
theorem Walk.Inv.lt_of_copies (hw : w.Inv b g c) (hc : Checked b nodes nets c)
    (h : Copies b c w.pins id q) :
  q < b.pins.size
  := by
  by_cases hdone : w.visit[id]? = some .done
  · obtain ⟨v, hv, -⟩ := (hw.settled id hdone).dealt_of_copies h
    apply hw.lt_of_visit hv
  · -- a pin that is not done has no driver yet
    have hid := h.lt_size
    rw [hw.states] at hid
    have hblank := hw.blank id hid hdone
    rw [Copies, dependency, entry_eq_ok_iff.mpr hblank, ok_bind] at h
    apply hc.lt_of_forwarded h

/-- Whether the net of a pin comes from a pin that waits is found. -/
theorem Walk.Inv.faultsIn_dependsOnPending (hw : w.Inv b g c) (hb : b.Closed)
    (hc : Checked b nodes nets c) (n : Nat) (next : Option PinId)
    (hnext : ∀ q ∈ next, q < b.pins.size) :
  FaultsIn P (dependsOnPending b c w n next)
  := by
  induction n generalizing next with
  | zero => apply faultsIn_ok
  | succ n ih =>
    cases next with
    | none => apply faultsIn_ok
    | some id =>
      have hid := hnext id rfl
      apply (hw.faultsIn_visit hid).bind
      rintro v -
      split
      · apply faultsIn_ok
      · apply (faultsIn_dependency hb hw.states hid).bind
        intro next hdependency
        apply ih
        rintro q rfl
        apply hw.lt_of_copies hc hdependency

/-- The net that a waiting pin will carry is found. -/
theorem faultsIn_pendingNet (hb : b.Closed) (hc : Checked b g.size nets c)
    (hid : id < b.pins.size) :
  FaultsIn P (pendingNet b g c id)
  := by
  apply (hc.faultsIn_knownNet hid).bind
  rintro known -
  split
  · apply faultsIn_ok
  · apply (hb.faultsIn_activeInputs hid).bind
    rintro edges -
    split
    · apply faultsIn_ok
    · apply faultsIn_ok

/-- A pin that no edge may drive makes its move. -/
theorem Walk.Inv.faultsIn_moveIdle (hw : w.Inv b g c) (hb : b.Closed)
    (hc : Checked b nodes nets c) (hid : f.pin < b.pins.size) (known : Option NetId) :
  FaultsIn P (f.moveIdle b c w known)
  := by
  have hfinish :
      FaultsIn P (do return Move.finish none known (← isUndriven b f.pin) : Outcome Move) := by
    apply (faultsIn_isUndriven hb hid).bind
    rintro isOpen -
    apply faultsIn_ok
  apply (faultsIn_forwarded hb hid).bind
  intro input hforwarded
  split
  · apply (hw.faultsIn_visit (hc.lt_of_forwarded hforwarded)).bind
    rintro v -
    split
    · apply faultsIn_ok
    · apply hfinish
  · apply hfinish

/-- A pin with a known net makes its move, unless it misses a driver and no name is found for it. -/
theorem Walk.Inv.faultsIn_moveKnown (hw : w.Inv b g c) (hb : b.Closed)
    (hc : Checked b nodes nets c) (hname : FaultsIn P (b.pinName f.pin))
    (hinputs : ∀ i ∈ f.inputs, i.source < b.pins.size) (net : NetId) :
  FaultsIn P (f.moveKnown b t c w net)
  := by
  rw [Frame.moveKnown]
  split
  · apply hname.bind
    rintro name -
    apply faultsIn_fail
  · rename_i i hi
    have hsource := hinputs i (List.mem_of_getElem? hi)
    apply (hw.faultsIn_visit hsource).bind
    rintro v -
    split
    · apply faultsIn_ok
    · apply faultsIn_ok
    · apply (hw.faultsIn_resolved hsource).bind
      rintro found -
      split
      · apply FaultsIn.bind
        · apply hw.faultsIn_dependsOnPending hb hc
          rintro q ⟨⟩
          apply hsource
        · rintro pending -
          split
          · apply faultsIn_ok
          · apply faultsIn_ok
      · apply faultsIn_ok

/-- A pin without a known net makes its move, unless it closes a cycle and no name is found for it.
-/
theorem Walk.Inv.faultsIn_moveFree (hw : w.Inv b g c) (hb : b.Closed)
    (hc : Checked b g.size nets c) (hname : FaultsIn P (b.pinName f.pin)) {first : Input}
    (hsource : first.source < b.pins.size) :
  FaultsIn P (f.moveFree b g c w first)
  := by
  apply (hw.faultsIn_visit hsource).bind
  rintro v -
  split
  · apply faultsIn_ok
  · apply (faultsIn_pendingNet hb hc hsource).bind
    rintro net -
    split
    · apply faultsIn_ok
    · apply hname.bind
      rintro name -
      apply faultsIn_fail
  · apply (hw.faultsIn_resolved hsource).bind
    rintro net -
    apply faultsIn_ok

/-- A pin on the stack is one of the type. -/
theorem Walk.Inv.lt_of_mem_stack (hw : w.Inv b g c) (hf : f ∈ w.stack) : f.pin < b.pins.size :=
  hw.lt_of_visit ((hw.waiting f.pin).mpr ⟨f, hf, rfl⟩)

/-- The pin on top of the stack makes its move, unless a problem stops it and no name is found for
it. -/
theorem Walk.Inv.faultsIn_move (hw : w.Inv b g c) (hb : b.Closed) (hc : Checked b g.size nets c)
    (hf : f ∈ w.stack) (hname : FaultsIn P (b.pinName f.pin)) :
  FaultsIn P (f.move b g t c w)
  := by
  have hid := hw.lt_of_mem_stack hf
  have hinputs := lt_of_inputsOf hb (hw.wired f hf)
  apply (hc.faultsIn_knownNet hid).bind
  rintro known -
  split
  · apply hw.faultsIn_moveIdle hb hc hid
  · rename_i first rest heq
    split
    · apply hw.faultsIn_moveKnown hb hc hname hinputs
    · apply hw.faultsIn_moveFree hb hc hname
      apply hinputs first
      rw [heq]
      apply List.mem_cons_self

/-- A pin of the type is put on the stack. -/
theorem Walk.Inv.faultsIn_push (hw : w.Inv b g c) (hb : b.Closed) (hid : id < b.pins.size) :
  FaultsIn P (w.push b c id)
  := by
  apply (faultsIn_alter (by rw [hw.visits]; apply hid)).bind
  rintro visit -
  apply (faultsIn_inputsOf hb hid).bind
  rintro inputs -
  apply faultsIn_ok

/-- A move of the pin on top of the stack is carried out. -/
theorem Walk.Inv.faultsIn_apply {below : List Frame} {m : Move} (hw : w.Inv b g c)
    (hb : b.Closed) (hf : f ∈ w.stack) (hmoves : f.Moves b g c w m) :
  FaultsIn P (w.apply b c f below m)
  := by
  cases m with
  | descend id => apply hw.faultsIn_push hb (hw.lt_of_visit hmoves.unvisited_of_descend)
  | skip => apply faultsIn_ok
  | finish selected resolved isOpen =>
    have hid := hw.lt_of_mem_stack hf
    apply (faultsIn_alter (by rw [hw.visits]; apply hid)).bind
    rintro visit -
    apply (faultsIn_alter (by rw [hw.nets]; apply hid)).bind
    rintro resolved -
    apply (faultsIn_alter (by rw [hw.states]; apply hid)).bind
    rintro pins -
    apply faultsIn_ok

/-! ### The walk -/

/-- From each state that the walk passes it comes to its end, unless a problem names a pin whose
name has no end. -/
theorem Passes.faultsIn_resume {next moves : Nat} (h : Passes b g t c next moves w)
    (hb : b.Closed) (hc : Checked b g.size nets c) (hnext : next ≤ b.pins.size) :
  FaultsIn b.Unending (resume b g t c next moves w)
  := by
  -- each step takes a move or a pin off what is left
  induction hn : b.pins.size - next + moves using Nat.strongRecOn
    generalizing next moves w with
  | _ n ih =>
    cases hstack : w.stack with
    | nil =>
      rcases Nat.eq_or_lt_of_le hnext with rfl | hlt
      · rw [resume_of_end hstack]
        apply faultsIn_ok
      · rw [resume_of_nil hstack hlt]
        apply (h.inv.faultsIn_visit hlt).bind
        intro v hv
        rw [entry_eq_ok_iff] at hv
        split
        · rename_i hunvisited
          rw [hunvisited] at hv
          apply (h.inv.faultsIn_push hb hlt).bind
          intro w' hpush
          apply ih _ _ (Passes.enter h hstack hlt hv hpush) hlt rfl
          omega
        · rename_i hne
          apply ih _ _ (Passes.pass h hstack hlt hv hne) hlt rfl
          omega
    | cons f below =>
      have hpos := h.moves_pos (by rw [hstack]; apply List.cons_ne_nil)
      cases moves with
      | zero => cases hpos
      | succ moves =>
        have hf : f ∈ w.stack := by
          rw [hstack]
          apply List.mem_cons_self
        rw [resume_of_cons hstack]
        have hname := hb.faultsIn_pinName (h.inv.lt_of_mem_stack hf)
        apply (h.inv.faultsIn_move hb hc hf hname).bind
        intro m hmove
        apply (h.inv.faultsIn_apply hb hf (Frame.moves_of_move hmove)).bind
        intro w' happly
        apply ih _ _ (Passes.move h hstack hmove happly) hnext rfl
        omega

/-- Drivers are selected, unless a problem names a pin whose name has no end. -/
theorem faultsIn_selectWithin (hb : b.Closed) (hc : Checked b g.size nets c) :
  FaultsIn b.Unending (selectWithin b g t c (moveBound b))
  := by
  rw [selectWithin_of_passes Passes.start]
  apply Passes.start.faultsIn_resume hb hc (Nat.zero_le _)

/-- Once drivers are selected, each pin has a state and copies from a pin of the type. -/
theorem lt_of_copies_of_selection {pins : Array PinState} (hc : Checked b nodes nets c)
    (h : selectWithin b g t c (moveBound b) = .ok pins) :
  pins.size = b.pins.size ∧ ∀ id q, Copies b c pins id q → q < b.pins.size
  := by
  obtain ⟨moves, w, hpasses, -, rfl⟩ := exists_passes_of_ok h
  refine ⟨hpasses.inv.states, ?_⟩
  intro id q hcopies
  apply hpasses.inv.lt_of_copies hc hcopies

/-! ### The order of propagation -/

section Order

variable {pins : Array PinState} {n : Nat} {visit visit' : Array Visit} {found found' : List PinId}
variable {start : Option PinId}

/-- Following a chain leaves the number of marks. -/
theorem size_of_chain (h : chain b c pins n visit found start = .ok (visit', found')) :
  visit'.size = visit.size
  := by
  induction n generalizing visit found start with
  | zero =>
    cases start with
    | none => cases pure_eq_ok_iff.mp h; rfl
    | some id => cases fault_ne_ok h
  | succ n ih =>
    cases start with
    | none => cases pure_eq_ok_iff.mp h; rfl
    | some id =>
      obtain ⟨v, -, h⟩ := bind_eq_ok_iff.mp h
      cases v with
      | done => cases pure_eq_ok_iff.mp h; rfl
      | visiting =>
        obtain ⟨name, -, h⟩ := bind_eq_ok_iff.mp h
        cases fail_ne_ok h
      | unvisited =>
        obtain ⟨next, -, h⟩ := bind_eq_ok_iff.mp h
        rw [ih h, Array.size_modify]

/-- A chain comes to its end, unless it is a cycle and no name is found for a pin of it. It may be
longer than there are pins left that have not been dealt with. -/
theorem faultsIn_chain (hb : b.Closed) (hsize : pins.size = b.pins.size)
    (hcopies : ∀ id q, Copies b c pins id q → q < b.pins.size)
    (hnames : ∀ id, Relation.TransGen (Copies b c pins) id id → FaultsIn P (b.pinName id))
    (hvisit : visit.size = b.pins.size) (hleading : Leading b c pins visit start)
    (hstart : ∀ id ∈ start, id < b.pins.size) (hn : visit.countP (· = .unvisited) < n) :
  FaultsIn P (chain b c pins n visit found start)
  := by
  induction n generalizing visit found start with
  | zero => cases hn
  | succ n ih =>
    cases start with
    | none => apply faultsIn_ok
    | some id =>
      have hid := hstart id rfl
      apply (faultsIn_entry (by rw [hvisit]; apply hid)).bind
      intro v hv
      rw [entry_eq_ok_iff] at hv
      cases v with
      | done => apply faultsIn_ok
      | visiting =>
        apply (hnames id (hleading.cycle hv)).bind
        rintro name -
        apply faultsIn_fail
      | unvisited =>
        apply (faultsIn_dependency hb hsize hid).bind
        intro next hnext
        cases next with
        | none => cases n <;> apply faultsIn_ok
        | some next =>
          apply ih
          · rw [Array.size_modify, hvisit]
          · apply hleading.next hnext
          · rintro _ ⟨⟩
            apply hcopies id next hnext
          · have hcount := countP_modify (· = .unvisited) (fun _ => .visiting) hv
            simp only [decide_true, Bool.toNat_true, reduceCtorEq, decide_false,
              Bool.toNat_false] at hcount
            omega

/-- The order of pins is found, unless they copy in a cycle and no name is found for a pin of it. -/
theorem faultsIn_orderFrom (hb : b.Closed) (hsize : pins.size = b.pins.size)
    (hcopies : ∀ id q, Copies b c pins id q → q < b.pins.size)
    (hnames : ∀ id, Relation.TransGen (Copies b c pins) id id → FaultsIn P (b.pinName id))
    {ids : List PinId} (hids : ∀ id ∈ ids, id < b.pins.size) (hsizes : visit.size = b.pins.size)
    (hvisit : ∀ q : PinId, visit[q]? ≠ some .visiting) :
  FaultsIn P (orderFrom b c pins visit ids)
  := by
  induction ids generalizing visit with
  | nil => apply faultsIn_ok
  | cons start ids ih =>
    obtain ⟨hstart, hids⟩ := List.forall_mem_cons.mp hids
    apply FaultsIn.bind
    · apply faultsIn_chain hb hsize hcopies hnames hsizes (leading_of_ne hvisit _)
      · rintro id ⟨⟩
        apply hstart
      · have hle : visit.countP (· = .unvisited) ≤ visit.size := Array.countP_le_size
        omega
    · rintro ⟨visit', found⟩ hchain
      apply FaultsIn.bind
      · apply ih hids
        · rw [size_markDone, size_of_chain hchain, hsizes]
        · apply ne_visiting_of_chain hchain hvisit
      · rintro order -
        apply faultsIn_ok

/-- The order of propagation is found, unless pins copy in a cycle and no name is found for a pin of
it. -/
theorem faultsIn_propagationOrder (hb : b.Closed) (hsize : pins.size = b.pins.size)
    (hcopies : ∀ id q, Copies b c pins id q → q < b.pins.size)
    (hnames : ∀ id, Relation.TransGen (Copies b c pins) id id → FaultsIn P (b.pinName id)) :
  FaultsIn P (propagationOrder b c pins)
  := by
  apply faultsIn_orderFrom hb hsize hcopies hnames
  · intro id hid
    rw [← hsize]
    apply List.mem_range.mp hid
  · rw [Array.size_replicate, hsize]
  · intro q hq
    simp [Array.getElem?_replicate] at hq

end Order

/-- The selection of drivers is safe, but for names without an end. It counts pins of the type. -/
theorem safe_selectLocalDrivers {Q : Event → Prop} (hb : b.Closed) (hc : Checked b g.size nets c)
    (hQ : ∀ selected openPins, selected ≤ b.pins.size → openPins ≤ b.pins.size →
      Q (.driversSelected c.name selected openPins)) :
  (selectLocalDrivers b g t).Safe b.Unending Q c
  := by
  apply Phase.safe_state_bind
  apply Phase.safe_lift_bind (faultsIn_selectWithin hb hc)
  intro pins hpins
  obtain ⟨hsize, hcopies⟩ := lt_of_copies_of_selection hc hpins
  have hnames : ∀ id, Relation.TransGen (Copies b c pins) id id →
      FaultsIn b.Unending (b.pinName id) := by
    intro id hcycle
    obtain ⟨q, hq, -⟩ := Relation.TransGen.head'_iff.mp hcycle
    apply hb.faultsIn_pinName
    rw [← hsize]
    apply hq.lt_size
  apply Phase.safe_lift_bind (faultsIn_propagationOrder hb hsize hcopies hnames)
  rintro order -
  apply Phase.safe_put_bind
  apply Phase.safe_report
  apply hQ
  · rw [← hsize]
    apply List.countP_le_length
  · rw [← hsize]
    apply List.countP_le_length

/-- Once drivers are selected, a checked cluster is so still, and copies from pins of the type. -/
theorem Checked.of_selectLocalDrivers {c' : Cluster} (hc : Checked b g.size nets c)
    (h : (selectLocalDrivers b g t).Gives c () c') :
  Checked b g.size nets c' ∧ ∀ id q, Copies b c' c'.locals.pins id q → q < b.pins.size
  := by
  obtain ⟨pins, order, hpins, -, rfl⟩ := gives_selectLocalDrivers_iff.mp h
  obtain ⟨hsize, hcopies⟩ := lt_of_copies_of_selection hc hpins
  constructor
  · constructor
    case forwards => apply hc.forwards
    case assigned => apply hc.assigned
    case bound => apply hc.bound
    case size => apply hsize
  · apply hcopies

/-! ### Propagating nets -/

/-- Clusters that differ in nets only are checked alike. -/
theorem Checked.of_silent_eq {c' : Cluster} (hc : Checked b nodes nets c)
    (hsame : c.silent = c'.silent) :
  Checked b nodes nets c'
  := by
  have hforwards := congr_of_silent_eq (·.routeThroughs) (fun _ => rfl) hsame
  have hassigned := congr_of_silent_eq (·.pinNets) (fun _ => rfl) hsame
  have hbound := congr_of_silent_eq (·.locals.bindings) (fun _ => rfl) hsame
  constructor
  case forwards =>
    rw [← hforwards]
    apply hc.forwards
  case assigned =>
    rw [← hassigned]
    apply hc.assigned
  case bound =>
    rw [← hbound]
    apply hc.bound
  case size => rw [← size_eq_of_silent_eq hsame, hc.size]

/-- The state of a pin of the type is found. -/
theorem Checked.faultsIn_pin (hc : Checked b nodes nets c) (hid : id < b.pins.size) :
  FaultsIn P (c.locals.pin id)
  := by
  apply faultsIn_entry
  rw [hc.size]
  apply hid

/-- The nets that a pin takes are found. -/
theorem Checked.faultsIn_incoming (hc : Checked b g.size t.nets.size c) (hb : b.Closed)
    (hcopies : ∀ id q, Copies b c c.locals.pins id q → q < b.pins.size) (hid : id < b.pins.size) :
  FaultsIn P (incoming b g t c id)
  := by
  apply (hc.faultsIn_pin hid).bind
  intro s hs
  split
  · rename_i d hd
    apply FaultsIn.bind
    · apply hc.faultsIn_pin
      apply hcopies id d.pin
      apply (copies_of_selected (entry_eq_ok_iff.mp hs) hd d.pin).mpr rfl
    · rintro source -
      apply faultsIn_ok
  · apply (faultsIn_isClusterInput hid).bind
    rintro isInput -
    split
    · split
      · rename_i node hnode
        apply (faultsIn_entry (hc.lt_of_nodeOf hnode)).bind
        rintro n -
        split
        · apply faultsIn_ok
        · apply hc.faultsIn_assigned
      · apply hc.faultsIn_assigned
    · apply (faultsIn_forwarded hb hid).bind
      intro input hinput
      split
      · apply (hc.faultsIn_pin (hc.lt_of_forwarded hinput)).bind
        rintro source -
        apply faultsIn_ok
      · apply hc.faultsIn_assigned

/-- Pins take their nets. -/
theorem Checked.faultsIn_propagatePins (hc : Checked b g.size t.nets.size c) (hb : b.Closed)
    (hcopies : ∀ id q, Copies b c c.locals.pins id q → q < b.pins.size) {ids : List PinId}
    (hids : ∀ id ∈ ids, id < b.pins.size) :
  FaultsIn P (propagatePins b g t c ids)
  := by
  induction ids generalizing c with
  | nil => apply faultsIn_ok
  | cons id ids ih =>
    obtain ⟨hid, hids⟩ := List.forall_mem_cons.mp hids
    apply FaultsIn.bind
    · apply (hc.faultsIn_incoming hb hcopies hid).bind
      rintro ⟨net, logical⟩ -
      apply (faultsIn_entry hid).bind
      rintro p -
      apply (hc.faultsIn_pin hid).bind
      rintro s -
      apply (faultsIn_alter (by rw [hc.size]; apply hid)).bind
      rintro pins -
      apply faultsIn_ok
    · rintro ⟨here, c'⟩ hpin
      obtain ⟨hsame, -⟩ := same_of_propagatePin hpin
      apply FaultsIn.bind
      · apply ih (hc.of_silent_eq hsame.symm) _ hids
        rw [copies_congr hsame]
        apply hcopies
      · rintro ⟨beyond, c''⟩ -
        apply faultsIn_ok

/-- A pin that the last propagation changed is one of the pins. -/
theorem lt_of_mem_changedPins (h : id ∈ c.locals.changedPins) : id < c.locals.pins.size := by
  obtain ⟨⟨s, id⟩, hmem, rfl⟩ := List.mem_map.mp h
  have hs := List.mem_zipIdx_iff_getElem?.mp (List.mem_filter.mp hmem).1
  rw [Array.getElem?_toList] at hs
  apply (Array.getElem?_eq_some_iff.mp hs).1

end RoutingFabric.Cluster
