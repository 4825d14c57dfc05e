import RoutingFabric.BlockGraph.Validity
import RoutingFabric.Proofs.Cluster.Invariant
import RoutingFabric.Proofs.Cluster.Order
import RoutingFabric.Proofs.Phase

/-!
# The selection of local drivers is sound

When the selection succeeds, every pin has the driver it should have. The drivers lead from a
pin with a known net, over pins that carry no net of their own or the same one, to a pin with
that net which no edge may drive.
-/

namespace RoutingFabric.Cluster

variable (b : BlockGraph) (g : RoutingGraph) (t : NetTable) (c : Cluster)

/-- The pin selects the other one as its driver. -/
def Drives (pins : Array PinState) (id q : PinId) : Prop :=
  ∃ s d, pins[id]? = some s ∧ s.selected = some d ∧ d.pin = q

/-- Along drivers the pin meets no net but the one, and ends at a pin with that net which has no
active edges. -/
def FedWith (pins : Array PinState) (net : NetId) (id : PinId) : Prop :=
  (∀ q, Relation.ReflTransGen (Drives pins) id q →
    knownNet b g c q = .ok none ∨ knownNet b g c q = .ok (some net))
    ∧ ∃ q, Relation.ReflTransGen (Drives pins) id q ∧ b.activeInputs c.modes q = .ok []
      ∧ knownNet b g c q = .ok (some net)

/-- The drivers of all pins are as they should be. -/
structure Sound (pins : Array PinState) : Prop where
  /-- every pin of the block graph has a state, active edges and possibly a known net -/
  total : pins.size = b.pins.size
    ∧ ∀ id < b.pins.size, ∃ edges known,
      b.activeInputs c.modes id = .ok edges ∧ knownNet b g c id = .ok known
  /-- a pin has a driver exactly if it has active edges -/
  driven : ∀ id s edges, pins[id]? = some s → b.activeInputs c.modes id = .ok edges →
    (s.selected.isSome ↔ edges ≠ [])
  /-- the driver is the source of an active edge, which is found at its place among them -/
  driver : ∀ id s d edges, pins[id]? = some s → s.selected = some d →
    b.activeInputs c.modes id = .ok edges →
    d.fanIn = edges.length ∧ d.path < d.fanIn ∧ edges[d.path]? = some d.edge
      ∧ ∃ e, b.edge d.edge = .ok e ∧ e.source = d.pin
  /-- a pin without a known net takes its first edge -/
  free : ∀ id s d, pins[id]? = some s → s.selected = some d →
    knownNet b g c id = .ok none → d.path = 0
  /-- a pin with a known net gets it over pins that carry no other, from one without edges -/
  fed : ∀ id edges net, b.activeInputs c.modes id = .ok edges → edges ≠ [] →
    knownNet b g c id = .ok (some net) → FedWith b g c pins net id
  /-- a pin is open exactly if nothing drives it -/
  opened : ∀ id s edges, pins[id]? = some s → b.activeInputs c.modes id = .ok edges →
    (s.isOpen ↔ edges = [] ∧ b.isClusterInput id = .ok false ∧ b.isPrimitiveOutput id = .ok false)
  /-- no pin copies its net from itself -/
  acyclic : ∀ id, ¬ Relation.TransGen (Copies b c pins) id id

variable {b g t c}

/-! ### Edges and their sources -/

/-- The edges that may drive a pin are its active edges with their sources. -/
theorem inputsOf_eq_ok_iff {id : PinId} {inputs : List Input} :
  inputsOf b c id = .ok inputs ↔ ∃ edges, b.activeInputs c.modes id = .ok edges
    ∧ List.Forall₂ (fun e i => i.edge = e ∧ ∃ edge, b.edge e = .ok edge ∧ edge.source = i.source)
      edges inputs
  := by
  simp only [inputsOf, bind_eq_ok_iff, mapM_eq_ok_iff, pure_eq_ok_iff]
  apply exists_congr
  intro edges
  apply and_congr_right
  intro _
  have hiff : ∀ e (i : Input), (∃ edge, b.edge e = .ok edge ∧ (⟨e, edge.source⟩ : Input) = i)
      ↔ i.edge = e ∧ ∃ edge, b.edge e = .ok edge ∧ edge.source = i.source := by
    intro e i
    constructor
    · rintro ⟨edge, hedge, rfl⟩
      exact ⟨rfl, edge, hedge, rfl⟩
    · rintro ⟨rfl, edge, hedge, hsource⟩
      use edge, hedge
      rw [hsource]
  simp only [hiff]

/-- No edge may drive a pin exactly if it has no active edges. -/
theorem inputsOf_eq_ok_nil_iff {id : PinId} :
  inputsOf b c id = .ok [] ↔ b.activeInputs c.modes id = .ok []
  := by
  simp [inputsOf_eq_ok_iff, List.forall₂_nil_right_iff]

/-- A pin is undriven exactly if it is no input of the cluster and no output of a primitive. -/
theorem eq_true_of_isUndriven {id : PinId} {isOpen : Bool} (h : isUndriven b id = .ok isOpen) :
  isOpen = true ↔ b.isClusterInput id = .ok false ∧ b.isPrimitiveOutput id = .ok false
  := by
  rw [isUndriven] at h
  obtain ⟨isInput, hinput, h⟩ := bind_eq_ok_iff.mp h
  cases isInput with
  | true =>
    obtain rfl := pure_eq_ok_iff.mp h
    simp [hinput]
  | false =>
    obtain ⟨isOutput, houtput, h⟩ := bind_eq_ok_iff.mp h
    obtain rfl := pure_eq_ok_iff.mp h
    simp [hinput, houtput]

/-! ### Drivers of settled pins -/

/-- The edge at a place among those that may drive a pin is the active edge at that place. -/
theorem exists_active_of_inputsOf {id : PinId} {inputs : List Input} {path : Nat} {i : Input}
    (h : inputsOf b c id = .ok inputs) (hi : inputs[path]? = some i) :
  ∃ edges e, b.activeInputs c.modes id = .ok edges ∧ edges.length = inputs.length
    ∧ edges[path]? = some i.edge ∧ b.edge i.edge = .ok e ∧ e.source = i.source
  := by
  obtain ⟨edges, hedges, hall⟩ := inputsOf_eq_ok_iff.mp h
  obtain ⟨hlength, hget⟩ := List.forall₂_iff_get.mp hall
  obtain ⟨hlt, rfl⟩ := List.getElem?_eq_some_iff.mp hi
  obtain ⟨hedge, e, he, hsource⟩ := hget path (hlength ▸ hlt) hlt
  simp only [List.get_eq_getElem] at hedge he hsource
  rw [← hedge] at he
  use edges, e, hedges, hlength
  constructor
  · rw [hedge]
    apply List.getElem?_eq_getElem
  · exact ⟨he, hsource⟩

/-- A settled pin is idle, or it has selected one of its active edges, the first one if it has no
known net. -/
theorem Settled.idle_or_driven {w : Walk} {id : PinId} (h : Settled b g c w id) :
  (∃ isOpen, b.activeInputs c.modes id = .ok [] ∧ isUndriven b id = .ok isOpen
      ∧ w.pins[id]? = some { isOpen })
    ∨ ∃ edges edge path e, b.activeInputs c.modes id = .ok edges ∧ edges[path]? = some edge
      ∧ b.edge edge = .ok e
      ∧ w.pins[id]? = some { selected := some ⟨e.source, edge, path, edges.length⟩ }
      ∧ (knownNet b g c id = .ok none → path = 0)
  := by
  cases h with
  | @idle own input isOpen wired known forwards dealt undriven pin resolved =>
    left
    use isOpen, inputsOf_eq_ok_nil_iff.mp wired
  | @free i rest net wired known dealt source pin resolved =>
    right
    obtain ⟨edges, e, hedges, hlength, hedge, he, hsource⟩ :=
      exists_active_of_inputsOf wired (List.getElem?_cons_zero : (i :: rest)[0]? = some i)
    use edges, i.edge, 0, e, hedges, hedge, he
    constructor
    · rw [pin, hsource, hlength, List.length_cons]
    · intro _
      rfl
  | @fed inputs path i net wired known next source done pin resolved =>
    right
    obtain ⟨edges, e, hedges, hlength, hedge, he, hsource⟩ := exists_active_of_inputsOf wired next
    use edges, i.edge, path, e, hedges, hedge, he
    constructor
    · rw [pin, hsource, hlength]
    · intro hfree
      rw [known] at hfree
      cases hfree

/-- A settled pin has active edges, or none. -/
theorem Settled.exists_active {w : Walk} {id : PinId} (h : Settled b g c w id) :
  ∃ edges, b.activeInputs c.modes id = .ok edges
  := by
  rcases h.idle_or_driven with ⟨isOpen, hedges, -⟩ | ⟨edges, edge, path, e, hedges, -⟩
  · use []
  · use edges

/-- The state of a settled pin follows from its active edges: it has none and is idle, or it has
selected one of them, the first one if it has no known net. -/
theorem Settled.state_cases {w : Walk} {id : PinId} {s : PinState} {edges : List EdgeId}
    (h : Settled b g c w id) (hs : w.pins[id]? = some s)
    (hedges : b.activeInputs c.modes id = .ok edges) :
  (∃ isOpen, edges = [] ∧ isUndriven b id = .ok isOpen ∧ s = { isOpen })
    ∨ ∃ edge path e, edges[path]? = some edge ∧ b.edge edge = .ok e
      ∧ s = { selected := some ⟨e.source, edge, path, edges.length⟩ }
      ∧ (knownNet b g c id = .ok none → path = 0)
  := by
  rcases h.idle_or_driven with ⟨isOpen, hactive, hopen, hstate⟩
    | ⟨active, edge, path, e, hactive, hedge, he, hstate, hfirst⟩
  · rw [hactive] at hedges
    rw [hstate] at hs
    cases hedges
    cases hs
    left
    use isOpen
  · rw [hactive] at hedges
    rw [hstate] at hs
    cases hedges
    cases hs
    right
    use edge, path, e

/-- The net that a settled pin is known to carry is determined. -/
theorem Settled.exists_known {w : Walk} {id : PinId} (h : Settled b g c w id) :
  ∃ known, knownNet b g c id = .ok known
  := by
  cases h with
  | @idle own => use own
  | free => use none
  | @fed _ _ _ net => use some net

/-- A pin copies from its driver. -/
theorem Drives.copies {pins : Array PinState} {id q : PinId} (h : Drives pins id q) :
  Copies b c pins id q
  := by
  obtain ⟨s, d, hpin, hselected, rfl⟩ := h
  rw [copies_of_selected hpin hselected]

/-- A pin has one driver at most. -/
theorem Drives.unique {pins : Array PinState} {id q q' : PinId}
    (h : Drives pins id q) (h' : Drives pins id q') :
  q' = q
  := by
  obtain ⟨s, d, hpin, hselected, rfl⟩ := h
  obtain ⟨s', d', hpin', hselected', rfl⟩ := h'
  rw [hpin] at hpin'
  cases hpin'
  rw [hselected] at hselected'
  cases hselected'
  rfl

/-- A pin without another net is fed with what its driver is fed with. -/
theorem FedWith.of_driver {pins : Array PinState} {net : NetId} {id q : PinId}
    (hown : knownNet b g c id = .ok none ∨ knownNet b g c id = .ok (some net))
    (hq : Drives pins id q) (h : FedWith b g c pins net q) :
  FedWith b g c pins net id
  := by
  obtain ⟨hall, e, he, hend, hnet⟩ := h
  constructor
  · intro p hp
    rcases Relation.ReflTransGen.cases_head hp with rfl | ⟨q', hq', hp⟩
    · apply hown
    · rw [hq.unique hq'] at hp
      apply hall p hp
  · use e, Relation.ReflTransGen.head hq he

/-- A grounded pin is fed with the net it carries. -/
theorem fedWith_of_grounded {w : Walk} (hw : w.Inv b g c)
    (hsettled : ∀ id < b.pins.size, Settled b g c w id) {id : PinId} {net : NetId}
    (hgrounded : Grounded b c w.pins id) (hid : id < b.pins.size)
    (hcarries : Carries b g c id (some net)) :
  FedWith b g c w.pins net id
  := by
  induction hgrounded with
  | intro id _ ih =>
    have hown : knownNet b g c id = .ok none ∨ knownNet b g c id = .ok (some net) := by
      obtain ⟨known, hknown⟩ := (hsettled id hid).exists_known
      rcases hcarries.eq_of_known hknown with rfl | rfl
      · left
        apply hknown
      · right
        apply hknown
    have hstep : ∀ q, Drives w.pins id q → Carries b g c q (some net) →
        FedWith b g c w.pins net id := by
      intro q hq hsource
      obtain ⟨v, hv, -⟩ := (hsettled id hid).dealt_of_copies hq.copies
      obtain ⟨hlt, -⟩ := Array.getElem?_eq_some_iff.mp hv
      rw [hw.visits] at hlt
      apply FedWith.of_driver hown hq
      apply ih q hq.copies hlt hsource
    cases hsettled id hid with
    | @idle own input isOpen wired known forwards dealt undriven pin resolved =>
      have hnet := hcarries.known_of_idle wired
      constructor
      · intro q hq
        rcases Relation.ReflTransGen.cases_head hq with rfl | ⟨q', ⟨s, d, hs, hd, -⟩, -⟩
        · apply hown
        · rw [pin] at hs
          cases hs
          cases hd
      · use id, Relation.ReflTransGen.refl, inputsOf_eq_ok_nil_iff.mp wired
    | @free i rest own wired known dealt source pin resolved =>
      apply hstep i.source ⟨_, _, pin, rfl, rfl⟩
      rw [hcarries.unique (Carries.first known wired source)]
      apply source
    | @fed inputs path i own wired known next source done pin resolved =>
      apply hstep i.source ⟨_, _, pin, rfl, rfl⟩
      rw [hcarries.unique (Carries.known known)]
      apply source

/-- If every pin is settled and grounded, the drivers of all pins are as they should be. -/
theorem sound_of_settled {w : Walk} (hw : w.Inv b g c)
    (hsettled : ∀ id < b.pins.size, Settled b g c w id)
    (hgrounded : ∀ id < b.pins.size, Grounded b c w.pins id)
    (hacyclic : ∀ id, ¬ Relation.TransGen (Copies b c w.pins) id id) :
  Sound b g c w.pins
  := by
  have hpin : ∀ {id : PinId} {s : PinState}, w.pins[id]? = some s → Settled b g c w id := by
    intro id s hs
    obtain ⟨hlt, -⟩ := Array.getElem?_eq_some_iff.mp hs
    apply hsettled
    rw [← hw.states]
    apply hlt
  constructor
  case total =>
    use hw.states
    intro id hid
    obtain ⟨known, hknown⟩ := (hsettled id hid).exists_known
    obtain ⟨edges, hedges⟩ := (hsettled id hid).exists_active
    use edges, known
  case driven =>
    intro id s edges hs hedges
    rcases (hpin hs).state_cases hs hedges with
      ⟨isOpen, rfl, -, rfl⟩ | ⟨edge, path, e, hedge, -, rfl, -⟩
    · simp
    · have hne : edges ≠ [] := List.ne_nil_of_mem (List.mem_of_getElem? hedge)
      simp [hne]
  case driver =>
    intro id s d edges hs hd hedges
    rcases (hpin hs).state_cases hs hedges with
      ⟨isOpen, -, -, rfl⟩ | ⟨edge, path, e, hedge, he, rfl, -⟩
    · cases hd
    · cases hd
      obtain ⟨hlt, -⟩ := List.getElem?_eq_some_iff.mp hedge
      use rfl, hlt, hedge, e
  case free =>
    intro id s d hs hd hfree
    obtain ⟨edges, hedges⟩ := (hpin hs).exists_active
    rcases (hpin hs).state_cases hs hedges with
      ⟨isOpen, -, -, rfl⟩ | ⟨edge, path, e, -, -, rfl, hfirst⟩
    · cases hd
    · cases hd
      apply hfirst hfree
  case fed =>
    intro id edges net hedges hne hknown
    obtain ⟨p, hp, -⟩ := bind_eq_ok_iff.mp hedges
    obtain ⟨hid, -⟩ := Array.getElem?_eq_some_iff.mp (entry_eq_ok_iff.mp hp)
    apply fedWith_of_grounded hw hsettled (hgrounded id hid) hid
    apply Carries.known hknown
  case opened =>
    intro id s edges hs hedges
    rcases (hpin hs).state_cases hs hedges with
      ⟨isOpen, rfl, hopen, rfl⟩ | ⟨edge, path, e, hedge, -, rfl, -⟩
    · simp [eq_true_of_isUndriven hopen]
    · have hne : edges ≠ [] := List.ne_nil_of_mem (List.mem_of_getElem? hedge)
      simp [hne]
  case acyclic => apply hacyclic

/-! ### The selection -/

/-- The selection succeeds, or is stopped, as the walk and then the order of propagation are. -/
theorem outcome_selectLocalDrivers :
  ((selectLocalDrivers b g t).run c).outcome
    = (selectWithin b g t c (moveBound b) >>= fun pins =>
        propagationOrder b c pins >>= fun _ => .ok ())
  := by
  simp [selectLocalDrivers, Phase.outcome_bind]

/-- What it takes for the selection to succeed, and what it leaves. -/
theorem gives_selectLocalDrivers_iff {c' : Cluster} :
  (selectLocalDrivers b g t).Gives c () c'
    ↔ ∃ pins order, selectWithin b g t c (moveBound b) = .ok pins
      ∧ propagationOrder b c pins = .ok order
      ∧ c' = { c with locals := { c.locals with pins, order } }
  := by
  simp only [selectLocalDrivers, Phase.gives_bind_iff, Phase.gives_state_iff, Phase.gives_lift_iff,
    Phase.gives_put_iff, Phase.gives_report_iff]
  constructor
  · rintro ⟨_, _, ⟨rfl, rfl⟩, pins, _, ⟨hpins, rfl⟩, order, _, ⟨horder, rfl⟩, _, _, rfl, rfl⟩
    use pins, order
  · rintro ⟨pins, order, hpins, horder, rfl⟩
    exact ⟨_, _, ⟨rfl, rfl⟩, pins, _, ⟨hpins, rfl⟩, order, _, ⟨horder, rfl⟩, (), _, rfl, rfl⟩

/-- Where the walk and the order of propagation succeed, drivers are as they should be. -/
theorem sound_of_selection {pins : Array PinState} {order : List PinId}
    (hpins : selectWithin b g t c (moveBound b) = .ok pins)
    (horder : propagationOrder b c pins = .ok order) :
  Sound b g c pins
  := by
  obtain ⟨moves, w, hw, hstack, rfl⟩ := exists_passes_of_ok hpins
  apply sound_of_settled hw.inv
  · intro id hid
    apply hw.settled hstack hid
  · intro id hid
    apply grounded_of_propagationOrder horder
    rw [hw.inv.states]
    apply hid
  · intro id
    apply acyclic_of_propagationOrder horder

/-- A selection that succeeds leaves the drivers of all pins as they should be. -/
theorem sound_of_selectLocalDrivers
    (h : ((selectLocalDrivers b g t).run c).outcome = .ok ()) :
  Sound b g c ((selectLocalDrivers b g t).run c).state.locals.pins
  := by
  obtain ⟨pins, order, hpins, horder, hstate⟩ := gives_selectLocalDrivers_iff.mp ⟨h, rfl⟩
  rw [hstate]
  apply sound_of_selection hpins horder

/-- A block with two inputs, either of which may drive the input of the table inside. -/
def eitherBlock : BlockGraph where
  name := "either"
  blocks := #[
    { name := "either", type := "either", modes := [⟨"default", [1], [0]⟩], pins := [0, 1] },
    { name := "table", type := "table", parent := some (0, 0), depth := 1, pins := [2] }]
  pins := #[
    { block := 0, port := "in", bit := 0, kind := .input, outputs := [0] },
    { block := 0, port := "in", bit := 1, kind := .input, outputs := [1] },
    { block := 1, port := "in", bit := 0, kind := .input, inputs := [0, 1] }]
  edges := #[⟨0, 2, 0⟩, ⟨1, 2, 0⟩]
  interconnects := #[
    { name := "either", kind := .fullMux, owner := 0, mode := 0, edges := [0, 1] }]

/-- The block placed, with a net on each input, the second of them in use. -/
def eitherCluster : Cluster where
  name := "either"
  blockGraph := 0
  place := ⟨0, 0⟩
  modes := #[none, none]
  pinNets := #[some 0, some 1, some 1]
  locals := Local.blank 3

/-- The drivers of the block are found and as they should be. -/
theorem sound_of_either :
  eitherBlock.validate = .ok ()
    ∧ ((selectLocalDrivers eitherBlock {} {}).run eitherCluster).outcome = .ok ()
    ∧ Sound eitherBlock {} eitherCluster
      ((selectLocalDrivers eitherBlock {} {}).run eitherCluster).state.locals.pins
  := ⟨by decide, by decide, sound_of_selectLocalDrivers (by decide)⟩

end RoutingFabric.Cluster
