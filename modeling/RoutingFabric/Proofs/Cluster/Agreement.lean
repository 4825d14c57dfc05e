import RoutingFabric.Proofs.Cluster.Checked
import RoutingFabric.Proofs.Cluster.ClosedForm
import RoutingFabric.Proofs.RoutingGraph.Tracing

/-!
# Selection and propagation agree on nets

Drivers are selected for the net that a pin is known to carry, which for an input of the cluster is
the one that clustering assigns, and only without that the one routed to its node. Propagation lets
the input take the routed net first. Where both are there and differ, the input is torn: it is
selected for one net and carries another. The main statement is `agrees_iff_of_phases`: torn inputs
are all that keeps the two from agreeing on the nets of all pins.
-/

namespace RoutingFabric.Cluster

/-- An input of the cluster that no edge may drive, and to whose node another net is routed than
the one that clustering assigns to it. -/
structure Torn (b : BlockGraph) (g : RoutingGraph) (c : Cluster) (id : PinId) : Prop where
  wired : inputsOf b c id = .ok []
  input : b.isClusterInput id = .ok true
  differs : ∃ node n own routed, c.locals.nodeOf id = some node ∧ g.node node = .ok n
    ∧ c.pinNet id = some own ∧ n.net = some routed ∧ routed ≠ own

/-- The nets that drivers were selected for are those that pins have after propagation. -/
structure Agrees (b : BlockGraph) (g : RoutingGraph) (c c' : Cluster) : Prop where
  /-- a pin has the net that it is known to carry -/
  known : ∀ id < b.pins.size, ∀ net, knownNet b g c id = .ok (some net) → c'.netAt id = some net
  /-- a pin has the net of its driver -/
  driven : ∀ id q, Drives c'.locals.pins id q → c'.netAt id = c'.netAt q

variable {b : BlockGraph} {g g₀ : RoutingGraph} {t : NetTable} {c c₀ c₁ c' : Cluster} {w : Walk}
variable {id q : PinId} {net : NetId} {order : List PinId} {count : Nat} {skip : Bool}
variable {stats : RoutingStats}

/-! ### Known nets -/

/-- A pin is known to carry the net that clustering assigns to it. -/
theorem knownNet_of_pinNet (h : c.pinNet id = some net) : knownNet b g c id = .ok (some net) := by
  rw [knownNet, h]
  rfl

/-- Clustering assigns to a pin the net that it is known to carry, or none. -/
theorem pinNet_eq_none_or {known : Option NetId} (h : knownNet b g c id = .ok known) :
  c.pinNet id = none ∨ c.pinNet id = known
  := by
  cases hnet : c.pinNet id with
  | none =>
    left
    rfl
  | some net =>
    right
    rw [knownNet_of_pinNet hnet] at h
    apply Except.ok.inj h

/-- Clustering assigns no net to a pin that is known to carry none. -/
theorem pinNet_eq_none (h : knownNet b g c id = .ok none) : c.pinNet id = none := by
  rcases pinNet_eq_none_or h with hnone | hnone <;> exact hnone

/-- A pin that is no input of the cluster is known to carry only the net that clustering assigns. -/
theorem pinNet_of_knownNet {known : Option NetId} (hinput : b.isClusterInput id = .ok false)
    (h : knownNet b g c id = .ok known) :
  c.pinNet id = known
  := by
  rw [knownNet] at h
  split at h
  · rename_i net hnet
    rw [hnet]
    apply Except.ok.inj h
  · rename_i hnone
    rw [hinput] at h
    rw [hnone]
    apply Except.ok.inj h

/-! ### Nets after propagation -/

/-- In a steady cluster a pin with a driver has its own net, or else that of the driver. -/
theorem Steady.netAt_of_selected (h : Steady b g t c) {s : PinState} {d : LocalDriver}
    (hs : c.locals.pins[id]? = some s) (hd : s.selected = some d) :
  c.netAt id = (c.pinNet id <|> c.netAt d.pin)
  := by
  have hcopies : Copies b c c.locals.pins id d.pin := by
    rw [copies_of_selected hs hd]
  have hin := h id s hs
  rw [incoming_of_copies hcopies] at hin
  obtain ⟨source, hsource, hin⟩ := bind_eq_ok_iff.mp hin
  rw [pure_eq_ok_iff, Prod.mk.injEq] at hin
  rw [netAt, netAt, hs, entry_eq_ok_iff.mp hsource, Option.bind_some, Option.bind_some, ← hin.1,
    copiedNet, hs, Option.bind_some, hd]
  rfl

/-- In a steady cluster a pin that forwards an input has its own net. -/
theorem Steady.netAt_of_forwarded (h : Steady b g t c) {s : PinState}
    (hs : c.locals.pins[id]? = some s) (hfree : s.selected = none)
    (hforwarded : forwarded b c id = .ok (some q)) :
  c.netAt id = c.pinNet id
  := by
  have hcopies : Copies b c c.locals.pins id q := by
    rw [copies_of_idle hs hfree hforwarded]
  have hin := h id s hs
  rw [incoming_of_copies hcopies] at hin
  obtain ⟨source, -, hin⟩ := bind_eq_ok_iff.mp hin
  rw [pure_eq_ok_iff, Prod.mk.injEq] at hin
  rw [netAt, hs, Option.bind_some, ← hin.1, copiedNet, hs, Option.bind_some, hfree]
  rfl

/-- In a steady cluster a pin that is not torn, and copies from none, has the net that it is known
to carry. -/
theorem Steady.netAt_of_known (h : Steady b g t c) (hwired : inputsOf b c id = .ok [])
    (hend : dependency b c c.locals.pins id = .ok none)
    (hknown : knownNet b g c id = .ok (some net)) (hwhole : ¬ Torn b g c id) :
  c.netAt id = some net
  := by
  have hin := h.outside_eq hend
  obtain ⟨isInput, hinput, hin⟩ := bind_eq_ok_iff.mp hin
  have hassigned : assigned t (c.pinNet id) = .ok (c.netAt id, c.logicalAt id) →
      c.netAt id = c.pinNet id := by
    intro hassigned
    obtain ⟨logical, -, hpair⟩ := bind_eq_ok_iff.mp hassigned
    rw [pure_eq_ok_iff, Prod.mk.injEq] at hpair
    exact hpair.1.symm
  cases isInput with
  | false => rw [hassigned hin, pinNet_of_knownNet hinput hknown]
  | true =>
    cases hnode : c.locals.nodeOf id with
    | none =>
      rw [hnode] at hin
      rw [hassigned hin]
      rcases pinNet_eq_none_or hknown with hnone | hown
      · simp [knownNet, hnone, hinput, hnode, pure, Except.pure] at hknown
      · exact hown
    | some node =>
      rw [hnode] at hin
      obtain ⟨n, hn, hin⟩ := bind_eq_ok_iff.mp hin
      have hrouted : c.pinNet id = none → n.net = some net := by
        intro hnone
        simpa [knownNet, hnone, hinput, hnode, hn, pure_eq_ok_iff] using hknown
      split at hin
      · rename_i hsome
        rw [pure_eq_ok_iff, Prod.mk.injEq] at hin
        rw [← hin.1]
        rcases pinNet_eq_none_or hknown with hnone | hown
        · apply hrouted hnone
        · obtain ⟨routed, hnet⟩ := Option.isSome_iff_exists.mp hsome
          by_contra hne
          apply hwhole
          use hwired, hinput, node, n, net, routed, hnode, hn, hown, hnet
          rintro rfl
          exact hne hnet
      · rename_i hfree
        rw [hassigned hin]
        rcases pinNet_eq_none_or hknown with hnone | hown
        · rw [hrouted hnone] at hfree
          cases hfree rfl
        · exact hown

/-- In a steady cluster a torn input does not have the net that it is known to carry. -/
theorem Steady.ne_known_of_torn (h : Steady b g t c)
    (hend : dependency b c c.locals.pins id = .ok none) (htorn : Torn b g c id) :
  ∃ net, knownNet b g c id = .ok (some net) ∧ c.netAt id ≠ some net
  := by
  obtain ⟨-, hinput, node, n, own, routed, hnode, hn, hown, hnet, hdiffers⟩ := htorn
  use own, knownNet_of_pinNet hown
  have hin := h.outside_eq hend
  simp only [outside, hinput, ok_bind, if_true, hnode, hn, hnet, Option.isSome_some,
    pure_eq_ok_iff, Prod.mk.injEq] at hin
  rw [← hin.1, ne_eq, Option.some.injEq]
  exact hdiffers

/-! ### Nets of selected drivers -/

/-- An input of the cluster forwards no input. -/
theorem eq_none_of_forwarded {input : Option PinId} (h : forwarded b c id = .ok input)
    (hinput : b.isClusterInput id = .ok true) :
  input = none
  := by
  cases input with
  | none => rfl
  | some q =>
    rw [isClusterInput_of_forwarded h] at hinput
    cases hinput

/-- The cluster once its drivers are those that a walk has selected. -/
def selectedBy (c : Cluster) (w : Walk) (order : List PinId) : Cluster :=
  { c with locals := { c.locals with pins := w.pins, order } }

section

variable (hsame : (c.selectedBy w order).silent = c'.silent)
include hsame

/-- Selecting drivers and propagating nets leaves alone which input a pin forwards. -/
theorem forwarded_of_selectedBy (id : PinId) : forwarded b c' id = forwarded b c id :=
  (congr_of_silent_eq (forwarded b · id) (fun _ => rfl) hsame).symm

/-- Selecting drivers and propagating nets leaves alone what clustering assigns to a pin. -/
theorem pinNet_of_selectedBy (id : PinId) : c'.pinNet id = c.pinNet id :=
  (congr_of_silent_eq (·.pinNet id) (fun _ => rfl) hsame).symm

/-- Selecting drivers and propagating nets leaves alone what a pin is known to carry. -/
theorem knownNet_of_selectedBy (id : PinId) : knownNet b g c' id = knownNet b g c id :=
  (congr_of_silent_eq (knownNet b g · id) (fun _ => rfl) hsame).symm

/-- Selecting drivers and propagating nets leaves alone the edges that may drive a pin. -/
theorem inputsOf_of_selectedBy (id : PinId) : inputsOf b c' id = inputsOf b c id :=
  (congr_of_silent_eq (inputsOf b · id) (fun _ => rfl) hsame).symm

/-- Selecting drivers and propagating nets tears no input, and mends none. -/
theorem torn_of_selectedBy : Torn b g c' id ↔ Torn b g c id := by
  have hnode : c'.locals.nodeOf id = c.locals.nodeOf id :=
    (congr_of_silent_eq (·.locals.nodeOf id) (fun _ => rfl) hsame).symm
  constructor
  · rintro ⟨hwired, hinput, hdiffers⟩
    rw [inputsOf_of_selectedBy hsame] at hwired
    rw [hnode, pinNet_of_selectedBy hsame] at hdiffers
    exact ⟨hwired, hinput, hdiffers⟩
  · rintro ⟨hwired, hinput, hdiffers⟩
    rw [← inputsOf_of_selectedBy hsame] at hwired
    rw [← hnode, ← pinNet_of_selectedBy hsame] at hdiffers
    exact ⟨hwired, hinput, hdiffers⟩

/-- Propagating nets leaves alone the driver of a pin. -/
theorem exists_pin_of_selectedBy {s : PinState} (hs : w.pins[id]? = some s) :
  ∃ s', c'.locals.pins[id]? = some s' ∧ s'.selected = s.selected
  := by
  obtain ⟨s', hs', hsilent⟩ := exists_pin_of_silent_eq hsame hs
  use s', hs'
  exact (congrArg PinState.selected hsilent).symm

/-- Where no input is torn, a pin that carries a net has it after propagation. -/
theorem netAt_of_carries (hsettled : ∀ id < b.pins.size, Settled b g c w id)
    (hordered : Ordered b c') (hsteady : Steady b g t c') (hwhole : ∀ e, ¬ Torn b g c e)
    (hid : id < b.pins.size) (hcarries : Carries b g c id (some net)) :
  c'.netAt id = some net
  := by
  have hgrounded := hordered.grounded id
  induction hgrounded with
  | intro id _ ih =>
    -- a driver hands on the net that it has by induction, unless the pin has another of its own
    have hdriven : ∀ {d : LocalDriver}, w.pins[id]? = some { selected := some d } →
        Carries b g c d.pin (some net) → c.pinNet id = none ∨ c.pinNet id = some net →
        c'.netAt id = some net := by
      intro d hs hsource hown
      obtain ⟨s', hs', hd⟩ := exists_pin_of_selectedBy hsame hs
      have hcopies : Copies b c' c'.locals.pins id d.pin := by
        rw [copies_of_selected hs' hd]
      have hlt := hordered.lt_of_copies hcopies
      rw [hordered.size] at hlt
      rw [hsteady.netAt_of_selected hs' hd, ih d.pin hcopies hlt hsource,
        pinNet_of_selectedBy hsame]
      rcases hown with hnone | hown
      · rw [hnone]
        rfl
      · rw [hown]
        rfl
    cases hsettled id hid with
    | @idle own input isOpen wired known forwards dealt undriven pin resolved =>
      have hknown := hcarries.known_of_idle wired
      obtain ⟨s', hs', hfree⟩ := exists_pin_of_selectedBy hsame pin
      rw [← forwarded_of_selectedBy hsame] at forwards
      rw [← knownNet_of_selectedBy hsame] at hknown
      cases input with
      | some q =>
        rw [hsteady.netAt_of_forwarded hs' hfree forwards]
        apply pinNet_of_knownNet (isClusterInput_of_forwarded forwards) hknown
      | none =>
        rw [← inputsOf_of_selectedBy hsame] at wired
        apply hsteady.netAt_of_known wired _ hknown
        · rw [torn_of_selectedBy hsame]
          apply hwhole
        · rw [dependency, entry_eq_ok_iff.mpr hs', ok_bind, hfree]
          exact forwards
    | @free i rest own wired known dealt source pin resolved =>
      apply hdriven pin
      · rw [hcarries.unique (Carries.first known wired source)]
        apply source
      · left
        apply pinNet_eq_none known
    | @fed inputs path i own wired known next source done pin resolved =>
      have hnet := hcarries.unique (Carries.known known)
      rw [← hnet] at known source
      apply hdriven pin source (pinNet_eq_none_or known)

end

/-! ### Agreement -/

/-- Where pins have the nets that drivers were selected for, no input is torn. -/
theorem not_torn_of_agrees (hsame : (c.selectedBy w order).silent = c'.silent)
    (hsettled : ∀ id < b.pins.size, Settled b g c w id) (hsteady : Steady b g t c')
    (hagrees : Agrees b g c c') (e : PinId) :
  ¬ Torn b g c e
  := by
  intro htorn
  have he : e < b.pins.size := lt_size_of_inputsOf htorn.wired
  cases hsettled e he with
  | @idle own input isOpen wired known forwards dealt undriven pin resolved =>
    obtain ⟨s', hs', hfree⟩ := exists_pin_of_selectedBy hsame pin
    have hend : dependency b c' c'.locals.pins e = .ok none := by
      rw [dependency, entry_eq_ok_iff.mpr hs', ok_bind, hfree]
      simp only
      rw [forwarded_of_selectedBy hsame, forwards, eq_none_of_forwarded forwards htorn.input]
    have htorn' := (torn_of_selectedBy hsame).mpr htorn
    obtain ⟨net, hknown, hne⟩ := hsteady.ne_known_of_torn hend htorn'
    rw [knownNet_of_selectedBy hsame] at hknown
    exact hne (hagrees.known e he net hknown)
  | free wired =>
    rw [htorn.wired] at wired
    cases wired
  | fed wired known next =>
    rw [htorn.wired] at wired
    cases wired
    cases next

/-- Where no input is torn, pins have the nets that drivers were selected for. -/
theorem agrees_of_not_torn (hsame : (c.selectedBy w order).silent = c'.silent)
    (hsettled : ∀ id < b.pins.size, Settled b g c w id) (hordered : Ordered b c')
    (hsteady : Steady b g t c') (hwhole : ∀ e, ¬ Torn b g c e) :
  Agrees b g c c'
  := by
  constructor
  case known =>
    intro id hid net hknown
    apply netAt_of_carries hsame hsettled hordered hsteady hwhole hid (Carries.known hknown)
  case driven =>
    rintro id q hdrives
    have hsource : q < b.pins.size := by
      rw [← hordered.size]
      apply hordered.lt_of_copies (b := b) hdrives.copies
    obtain ⟨s', d, hs', hd, rfl⟩ := hdrives
    have hid : id < b.pins.size := by
      rw [← hordered.size]
      apply (Array.getElem?_eq_some_iff.mp hs').1
    obtain ⟨s, hs, hsilent⟩ := exists_pin_of_silent_eq hsame.symm hs'
    have hselected : s.selected = some d := (congrArg PinState.selected hsilent).symm.trans hd
    replace hs : w.pins[id]? = some s := hs
    cases hsettled id hid with
    | idle wired known forwards dealt undriven pin =>
      rw [pin] at hs
      cases hs
      cases hselected
    | free wired known dealt source pin =>
      rw [hsteady.netAt_of_selected hs' hd, pinNet_of_selectedBy hsame, pinNet_eq_none known]
      rfl
    | @fed inputs path i own wired known next source done pin =>
      rw [pin] at hs
      cases hs
      cases hselected
      have hcarried : ∀ {p}, p < b.pins.size → Carries b g c p (some own) →
          c'.netAt p = some own :=
        netAt_of_carries hsame hsettled hordered hsteady hwhole
      rw [hcarried hid (Carries.known known), hcarried hsource source]

/-- A checked cluster is served by a graph and a table that it was checked for. -/
theorem Checked.served (hc : Checked b g.size t.nets.size c) : Served g t c := by
  constructor
  · intro id node
    apply hc.lt_of_nodeOf
  · intro id net
    apply hc.lt_of_pinNet

/-- Selection and propagation agree on the nets of all pins exactly where no input is torn. -/
theorem agrees_iff (hselect : (selectLocalDrivers b g t).Gives c () c₁)
    (hok : propagateNets b g t c₁ = .ok (count, c')) :
  Agrees b g c c' ↔ ∀ e, ¬ Torn b g c e
  := by
  obtain ⟨pins, order, hpins, horder, rfl⟩ := gives_selectLocalDrivers_iff.mp hselect
  have hordered := ordered_of_selection hpins horder
  have hsame := (hordered.propagated hok).same.symm
  have hsteady := hordered.steady hok
  obtain ⟨moves, w, hw, hstack, rfl⟩ := exists_passes_of_ok hpins
  have hsettled : ∀ id < b.pins.size, Settled b g c w id := fun _ => hw.settled hstack
  constructor
  · apply not_torn_of_agrees hsame hsettled hsteady
  · apply agrees_of_not_torn hsame hsettled (hordered.of_silent_eq hsame) hsteady

/-- In a prepared cluster, with traced nets and selected drivers, nets can be propagated. What
selection and propagation make of the nets of pins then agrees exactly where no input is torn. -/
theorem agrees_iff_of_phases (hprepare : (prepare b g₀ t.nets.size).Gives c₀ () c)
    (htrace : (RoutingGraph.traceAll t skip).Gives g₀ stats g)
    (hselect : (selectLocalDrivers b g t).Gives c () c₁) :
  ∃ count c', propagateNets b g t c₁ = .ok (count, c')
    ∧ (Agrees b g c c' ↔ ∀ e, ¬ Torn b g c e)
  := by
  have hchecked := checked_of_prepare hprepare
  have hgraph := (RoutingGraph.tracedBefore_of_traceAll htrace).traced.marked.same
  have hsize : g.size = g₀.size := RoutingGraph.size_eq_of_view_eq hgraph
  obtain ⟨pins, order, hpins, horder, rfl⟩ := gives_selectLocalDrivers_iff.mp hselect
  have hordered := ordered_of_selection hpins horder
  rw [← hsize] at hchecked
  have hserved := hchecked.served
  obtain ⟨count, c', hok⟩ := hordered.exists_propagateNets_of_served
    ⟨hserved.nodes, hserved.nets⟩
  use count, c', hok
  apply agrees_iff hselect hok

/-! ### Two inputs that are swapped -/

/-- A block with two inputs, either of which may drive the input of the table inside, and which are
pins of the block's boundary. -/
def twinBlock : BlockGraph :=
  { eitherBlock with
    pins := #[
      { block := 0, port := "in", bit := 0, kind := .input, boundary := some 0, outputs := [0] },
      { block := 0, port := "in", bit := 1, kind := .input, boundary := some 1, outputs := [1] },
      { block := 1, port := "in", bit := 0, kind := .input, inputs := [0, 1] }] }

/-- The two input pins of the block, and a pin of another block that drives each of them. -/
def twinGraph : RoutingGraph where
  switches := #[{ name := "switch" }]
  nodes := #[
    { kind := .inPin, low := ⟨0, 0⟩, high := ⟨0, 0⟩, ptc := 0, side := some .top, fanIn := 1,
      drivers := [⟨2, 0, 0⟩], driverSwitch := some 0 },
    { kind := .inPin, low := ⟨0, 0⟩, high := ⟨0, 0⟩, ptc := 1, side := some .top, fanIn := 1,
      drivers := [⟨3, 0, 0⟩], driverSwitch := some 0 },
    { kind := .outPin, low := ⟨1, 0⟩, high := ⟨1, 0⟩, ptc := 0, side := some .top,
      edges := [⟨0, 0⟩] },
    { kind := .outPin, low := ⟨1, 0⟩, high := ⟨1, 0⟩, ptc := 1, side := some .top,
      edges := [⟨1, 0⟩] }]
  lookup := [0, 1, 2, 3]

/-- One net is routed to the first input, and one to the second. -/
def straightNets : NetTable where
  nets := #[
    { name := "x", logical := 0, trace := [2, 0] },
    { name := "y", logical := 1, trace := [3, 1] }]
  logicals := #[⟨"x"⟩, ⟨"y"⟩]

/-- The nets are routed to each other's input. -/
def crossedNets : NetTable where
  nets := #[
    { name := "x", logical := 0, trace := [3, 1] },
    { name := "y", logical := 1, trace := [2, 0] }]
  logicals := #[⟨"x"⟩, ⟨"y"⟩]

/-- Clustering expects the first net at the first input, where the table takes it from. -/
def twinCluster : Cluster :=
  { eitherCluster with
    pinNets := #[some 0, some 1, some 0]
    locals := { Local.blank 3 with bindings := [(0, 0), (1, 1)] } }

/-- The block with its drivers selected. -/
def drivenTwin : Cluster :=
  { twinCluster with
    locals := { twinCluster.locals with
      pins := #[{}, {}, { selected := some ⟨0, 0, 0, 2⟩ }], order := [0, 1, 2] } }

/-- The graph after nets are traced. -/
def tracedTwin (t : NetTable) : RoutingGraph :=
  ((RoutingGraph.traceAll t true).run twinGraph).state

/-- Where the nets are routed to the inputs that clustering expects them at, they agree. -/
theorem agrees_of_straight :
  (prepare twinBlock twinGraph straightNets.nets.size).Gives twinCluster () twinCluster
    ∧ (RoutingGraph.traceAll straightNets true).Gives twinGraph ⟨2, 0, 4⟩ (tracedTwin straightNets)
    ∧ (selectLocalDrivers twinBlock (tracedTwin straightNets) straightNets).Gives
      twinCluster () drivenTwin
    ∧ ∃ count c', propagateNets twinBlock (tracedTwin straightNets) straightNets drivenTwin
        = .ok (count, c')
      ∧ Agrees twinBlock (tracedTwin straightNets) twinCluster c'
  := by
  have hprepare : (prepare twinBlock twinGraph straightNets.nets.size).Gives
      twinCluster () twinCluster := by
    constructor <;> decide
  have htrace : (RoutingGraph.traceAll straightNets true).Gives twinGraph ⟨2, 0, 4⟩
      (tracedTwin straightNets) := ⟨by decide +kernel, rfl⟩
  have hselect : (selectLocalDrivers twinBlock (tracedTwin straightNets) straightNets).Gives
      twinCluster () drivenTwin := by
    constructor <;> decide +kernel
  obtain ⟨count, c', hok, hiff⟩ := agrees_iff_of_phases hprepare htrace hselect
  use hprepare, htrace, hselect, count, c', hok
  apply hiff.mpr
  rintro e ⟨hwired, hinput, node, n, own, routed, hnode, hn, hown, hnet, hdiffers⟩
  have hinputs : ∀ e < 3, twinBlock.isClusterInput e = .ok true →
      ((twinCluster.locals.nodeOf e).bind fun q => (tracedTwin straightNets).nodes[q]?.bind (·.net))
        = twinCluster.pinNet e := by
    decide +kernel
  have heq := hinputs e (lt_size_of_inputsOf hwired) hinput
  rw [hnode, Option.bind_some, entry_eq_ok_iff.mp hn, Option.bind_some, hnet, hown] at heq
  exact hdiffers (Option.some.inj heq)

/-- The block after nets are propagated from the swapped inputs. -/
def tornTwin : Cluster :=
  { drivenTwin with
    locals := { drivenTwin.locals with
      pins := #[
        { net := some 1, logical := some 1, changed := true },
        { net := some 0, logical := some 0, changed := true },
        { selected := some ⟨0, 0, 0, 2⟩, net := some 0, logical := some 1, changed := true }] } }

/-- Where the router has swapped the nets of the two inputs, the table has another net than the
first input, which it selected as the driver that brings this net. -/
theorem not_agrees_of_crossed :
  twinBlock.validate = .ok ()
    ∧ (prepare twinBlock twinGraph crossedNets.nets.size).Gives twinCluster () twinCluster
    ∧ (RoutingGraph.traceAll crossedNets true).Gives twinGraph ⟨2, 0, 4⟩ (tracedTwin crossedNets)
    ∧ (selectLocalDrivers twinBlock (tracedTwin crossedNets) crossedNets).Gives
      twinCluster () drivenTwin
    ∧ propagateNets twinBlock (tracedTwin crossedNets) crossedNets drivenTwin = .ok (3, tornTwin)
    ∧ ¬ Agrees twinBlock (tracedTwin crossedNets) twinCluster tornTwin
  := by
  refine ⟨by decide, by constructor <;> decide, ⟨by decide +kernel, rfl⟩,
    by constructor <;> decide +kernel, by decide +kernel, ?_⟩
  intro hagrees
  have hdriven := hagrees.driven 2 0 ⟨_, _, rfl, rfl, rfl⟩
  revert hdriven
  decide

end RoutingFabric.Cluster
