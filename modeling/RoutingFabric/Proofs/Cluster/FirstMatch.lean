import RoutingFabric.BlockGraph.Validity
import RoutingFabric.Cluster.Binding
import RoutingFabric.Proofs.Cluster.Selection
import RoutingFabric.Proofs.Cluster.Trail

/-!
# The first edge that brings the net

A pin with a known net selects an edge whose source resolves to the net. The source of an edge
before that one does not, or it depends on the pin itself, or the pin is contested: the source has
to take its net from another pin with a choice, which may choose to take it from the pin. Such an
edge is skipped for good, also where the other pin chooses otherwise in the end.
-/

namespace RoutingFabric.Cluster

variable (b : BlockGraph) (g : RoutingGraph) (t : NetTable) (c : Cluster)

/-- Along its drivers, over pins without a known net, the pin comes to one that is known to carry
the net. -/
inductive Resolves (pins : Array PinState) (net : NetId) : PinId → Prop
  /-- the pin itself is -/
  | here {id : PinId} (known : knownNet b g c id = .ok (some net)) : Resolves pins net id
  /-- the pin has no known net, and its driver comes to it -/
  | beyond {id q : PinId} (known : knownNet b g c id = .ok none) (drives : Drives pins id q)
    (rest : Resolves pins net q) :
    Resolves pins net id

/-- The source has to take its net from another pin with a choice, which may choose to take its net
from the pin. -/
def Contested (id source : PinId) : Prop :=
  ∃ k ≠ id, Chooses b g c k ∧ Relation.ReflTransGen (Forced b g c) source k
    ∧ Relation.TransGen (Wants b g c) k id

/-- Where a pin with a known net passed an edge that brings the net before it selected one, the
source of that edge has to take its net from a pin that wants the first. -/
def Skipped (pins : Array PinState) : Prop :=
  ∀ id s d net inputs i, pins[id]? = some s → s.selected = some d →
    knownNet b g c id = .ok (some net) → inputsOf b c id = .ok inputs → i ∈ inputs.take d.path →
    Carries b g c i.source (some net) →
    ∃ q, Relation.ReflTransGen (Forced b g c) i.source q
      ∧ Relation.ReflTransGen (Wants b g c) q id

variable {b g t c}

/-! ### Edges that are skipped -/

/-- A pin that is finished has skipped the edges before the one it selects. -/
theorem Passes.skipped_of_finish {next moves : Nat} {w w' : Walk}
    (hw : Passes b g t c next moves w) (hskipped : Skipped b g c w.pins) {f : Frame}
    {below : List Frame} {selected : Option LocalDriver} {resolved : Option NetId} {isOpen : Bool}
    (hstack : w.stack = f :: below) (hmoves : f.Moves b g c w (.finish selected resolved isOpen))
    (h : w.apply b c f below (.finish selected resolved isOpen) = .ok w') :
  Skipped b g c w'.pins
  := by
  have hf : f ∈ w.stack := by simp [hstack]
  have hvisit := (hw.inv.waiting f.pin).mpr ⟨f, hf, rfl⟩
  obtain ⟨hstate, -⟩ := hw.inv.state_of_finish hvisit h
  intro id s d net inputs i hs hd hknown hinputs hi hcarries
  rcases eq_or_ne id f.pin with rfl | hne
  · rw [hstate] at hs
    cases hs
    obtain rfl : selected = some d := hd
    rw [hw.inv.wired f hf] at hinputs
    cases hinputs
    cases hmoves with
    | freeWaiting known => simp_all
    | freeDone known => simp_all
    | take =>
      have hpassed := hw.passed
      rw [hstack] at hpassed
      obtain ⟨q, hq, hforced⟩ := (hpassed.1 net hknown i hi).held hcarries
      use q, hforced
      apply hw.wants_top hstack
      rw [hstack]
      apply hq
  · obtain rfl := eq_of_finish h
    rw [Array.getElem?_modify, if_neg hne.symm] at hs
    apply hskipped id s d net inputs i hs hd hknown hinputs hi hcarries

/-- In all states that the walk passes, edges before those that have been selected are skipped for
this reason. -/
theorem Passes.skipped {next moves : Nat} {w : Walk} (h : Passes b g t c next moves w) :
  Skipped b g c w.pins
  := by
  induction h with
  | start =>
    intro id s d net inputs i hs hd
    obtain ⟨-, rfl⟩ : id < b.pins.size ∧ {} = s := by
      simpa [Walk.start, Array.getElem?_replicate] using hs
    cases hd
  | pass before stack bound visit ne ih => apply ih
  | enter before stack bound visit push ih =>
    obtain ⟨inputs, -, -, rfl⟩ := push_eq_ok_iff.mp push
    apply ih
  | @move next moves w w' f below m before stack move apply ih =>
    have hmoves := Frame.moves_of_move move
    cases m with
    | descend id =>
      obtain ⟨inputs, -, -, rfl⟩ := push_eq_ok_iff.mp apply
      apply ih
    | skip =>
      obtain rfl := pure_eq_ok_iff.mp apply
      apply ih
    | finish selected resolved isOpen =>
      apply before.skipped_of_finish ih stack hmoves apply

/-! ### What pins resolve to -/

/-- Once every pin is settled, pins resolve to the nets that they carry. -/
theorem resolves_iff_carries {w : Walk} (hw : w.Inv b g c)
    (hsettled : ∀ id < b.pins.size, Settled b g c w id) {id : PinId} {net : NetId} :
  Resolves b g c w.pins net id ↔ Carries b g c id (some net)
  := by
  constructor
  · intro h
    induction h with
    | here known => apply Carries.known known
    | beyond known drives rest ih =>
      obtain ⟨s, d, hs, hd, rfl⟩ := drives
      obtain ⟨hid, -⟩ := Array.getElem?_eq_some_iff.mp hs
      rw [hw.states] at hid
      cases hsettled _ hid with
      | idle _ _ _ _ _ pin =>
        rw [hs] at pin
        cases pin
        cases hd
      | free wired _ _ _ pin =>
        rw [hs] at pin
        cases pin
        cases hd
        apply Carries.first known wired ih
      | fed _ known' =>
        rw [known] at known'
        cases known'
  · intro h
    generalize hnet : some net = carried at h
    induction h with
    | known known =>
      cases hnet
      apply Resolves.here known
    | idle => cases hnet
    | first known wired source ih =>
      cases hsettled _ (lt_size_of_inputsOf wired) with
      | idle wired' =>
        rw [wired] at wired'
        cases wired'
      | free wired' _ _ _ pin =>
        rw [wired] at wired'
        cases wired'
        apply Resolves.beyond known ⟨_, _, pin, rfl, rfl⟩ (ih hnet)
      | fed _ known' =>
        rw [known] at known'
        cases known'

/-- A settled pin with a known net has selected an edge whose source carries the net. -/
theorem Settled.carries_driver {w : Walk} {id : PinId} {s : PinState} {d : LocalDriver}
    {net : NetId} (h : Settled b g c w id) (hs : w.pins[id]? = some s) (hd : s.selected = some d)
    (hknown : knownNet b g c id = .ok (some net)) :
  Carries b g c d.pin (some net)
  := by
  cases h with
  | idle _ _ _ _ _ pin =>
    rw [hs] at pin
    cases pin
    cases hd
  | free _ known =>
    rw [hknown] at known
    cases known
  | fed _ known _ source _ pin =>
    rw [hs] at pin
    cases pin
    cases hd
    rw [hknown] at known
    cases known
    apply source

/-- The source of an edge that is skipped depends on the pin, or the pin is contested. -/
theorem depends_or_contested {pins : Array PinState} {id source q : PinId}
    (hcopies : ∀ p q, Forced b g c p q → Copies b c pins p q)
    (hforced : Relation.ReflTransGen (Forced b g c) source q)
    (hwants : Relation.ReflTransGen (Wants b g c) q id) :
  Relation.ReflTransGen (Copies b c pins) source id ∨ Contested b g c id source
  := by
  rcases forced_or_chooses hwants with hback | ⟨k, hk, hway, hback⟩
  · left
    apply Relation.ReflTransGen.mono hcopies
    apply hforced.trans hback
  · rcases eq_or_ne k id with rfl | hne
    · left
      apply Relation.ReflTransGen.mono hcopies
      apply hforced.trans hway
    · right
      use k, hne, hk, hforced.trans hway

/-- A pin with a known net selects an edge whose source resolves to the net. The source of an edge
before that one does not, depends on the pin itself, or makes the pin contested. -/
theorem first_of_selectLocalDrivers {c' : Cluster} (h : (selectLocalDrivers b g t).Gives c () c') :
  ∀ id s d net inputs, c'.locals.pins[id]? = some s → s.selected = some d →
    knownNet b g c id = .ok (some net) → inputsOf b c id = .ok inputs →
    Resolves b g c c'.locals.pins net d.pin
      ∧ ∀ j < d.path, ∀ i, inputs[j]? = some i →
        ¬ Resolves b g c c'.locals.pins net i.source
        ∨ Relation.ReflTransGen (Copies b c c'.locals.pins) i.source id
        ∨ Contested b g c id i.source
  := by
  obtain ⟨pins, order, hselect, -, rfl⟩ := gives_selectLocalDrivers_iff.mp h
  obtain ⟨moves, w, hw, hstack, rfl⟩ := exists_passes_of_ok hselect
  have hsettled : ∀ id < b.pins.size, Settled b g c w id := fun _ hid => hw.settled hstack hid
  intro id s d net inputs hs hd hknown hinputs
  constructor
  · rw [resolves_iff_carries hw.inv hsettled]
    apply (hsettled id (lt_size_of_inputsOf hinputs)).carries_driver hs hd hknown
  · intro j hj i hi
    rw [resolves_iff_carries hw.inv hsettled]
    by_cases hcarries : Carries b g c i.source (some net)
    · right
      have hmem : i ∈ inputs.take d.path := by
        apply List.mem_of_getElem?
        rw [List.getElem?_take_of_lt hj, hi]
      obtain ⟨q, hforced, hwants⟩ :=
        hw.skipped id s d net inputs i hs hd hknown hinputs hmem hcarries
      apply depends_or_contested _ hforced hwants
      intro p q hq
      apply (hsettled p hq.lt_size).copies_of_forced hq
    · left
      apply hcarries

/-! ### An edge that is skipped although it brings the net -/

/-- A buffer and a table next to two inputs of the block. The buffer can be driven from the table
or from the first input, and the table from the buffer or from the second input. -/
def bypassBlock : BlockGraph where
  name := "clb"
  blocks := #[
    { name := "clb", type := "clb", modes := [⟨"default", [1, 2], [1, 2]⟩], pins := [0, 1] },
    { name := "buf[0]", type := "buf", parent := some (0, 0), depth := 1,
      modes := [⟨"pass", [], [0]⟩], pins := [2, 3] },
    { name := "lut[0]", type := "lut", parent := some (0, 0), depth := 1, pins := [4, 5] }]
  pins := #[
    { block := 0, port := "I", bit := 0, kind := .input, boundary := some 0, outputs := [2] },
    { block := 0, port := "J", bit := 0, kind := .input, boundary := some 1, outputs := [4] },
    { block := 1, port := "in", bit := 0, kind := .input, inputs := [1, 2], outputs := [0] },
    { block := 1, port := "out", bit := 0, kind := .output, inputs := [0], outputs := [3] },
    { block := 2, port := "in", bit := 0, kind := .input, inputs := [3, 4] },
    { block := 2, port := "out", bit := 0, kind := .output, outputs := [1] }]
  edges := #[⟨2, 3, 0⟩, ⟨5, 2, 1⟩, ⟨0, 2, 1⟩, ⟨3, 4, 2⟩, ⟨1, 4, 2⟩]
  interconnects := #[
    { name := "through", kind := .wire, owner := 1, mode := 0, edges := [0] },
    { name := "crossbar0", kind := .fullMux, owner := 0, mode := 0, edges := [1, 2] },
    { name := "crossbar1", kind := .fullMux, owner := 0, mode := 0, edges := [3, 4] }]

/-- The two input pins of the block. -/
def bypassGraph : RoutingGraph where
  nodes := #[
    { kind := .inPin, low := ⟨0, 0⟩, high := ⟨0, 0⟩, ptc := 0, side := some .top },
    { kind := .inPin, low := ⟨0, 0⟩, high := ⟨0, 0⟩, ptc := 1, side := some .top }]
  lookup := [0, 1]

/-- The net that enters the block, and the one that the table forwards it to. -/
def bypassNets : NetTable where
  nets := #[{ name := "x", logical := 0 }, { name := "y", logical := 1 }]
  logicals := #[⟨"x"⟩, ⟨"y"⟩]

/-- The net enters at both inputs, and is known at the inputs of the buffer and of the table. -/
def bypassCluster : Cluster where
  name := "c0"
  blockGraph := 0
  place := ⟨0, 0⟩
  modes := #[some 0, some 0, none]
  pinNets := #[some 0, some 0, some 0, none, some 0, some 1]
  routeThroughs := [(5, 4)]
  locals := { Local.blank 6 with bindings := [(0, 0), (1, 1)] }

/-- The buffer is driven from the first input, and the table from the second. -/
def bypassPins : Array PinState := #[{}, {}, { selected := some ⟨0, 2, 1, 2⟩ },
  { selected := some ⟨2, 0, 0, 1⟩ }, { selected := some ⟨1, 4, 1, 2⟩ }, {}]

/-- The block with its drivers selected. -/
def drivenBypass : Cluster :=
  { bypassCluster with
    locals := { bypassCluster.locals with pins := bypassPins, order := [0, 1, 2, 3, 4, 5] } }

/-- The drivers of the block are selected. -/
theorem selectLocalDrivers_bypass :
  (selectLocalDrivers bypassBlock bypassGraph bypassNets).Gives bypassCluster () drivenBypass
  := by
  constructor <;> decide

/-- The input of the table skips the buffer, which does not bring the net, or depends on the table,
or makes the input of the table contested. -/
theorem first_of_bypass :
  (selectLocalDrivers bypassBlock bypassGraph bypassNets).Gives bypassCluster () drivenBypass
    ∧ Resolves bypassBlock bypassGraph bypassCluster bypassPins 0 1
    ∧ (¬ Resolves bypassBlock bypassGraph bypassCluster bypassPins 0 3
      ∨ Relation.ReflTransGen (Copies bypassBlock bypassCluster bypassPins) 3 4
      ∨ Contested bypassBlock bypassGraph bypassCluster 4 3)
  := by
  obtain ⟨hdriver, hbefore⟩ := first_of_selectLocalDrivers selectLocalDrivers_bypass 4
    { selected := some ⟨1, 4, 1, 2⟩ } ⟨1, 4, 1, 2⟩ 0 [⟨3, 3⟩, ⟨4, 1⟩] rfl rfl (by decide)
    (by decide)
  use selectLocalDrivers_bypass, hdriver
  apply hbefore 0 (by decide) ⟨3, 3⟩ rfl

/-- The input of the table selects its second edge, although the source of the first resolves to
its net and does not depend on it. -/
theorem bypassed_first :
  bypassBlock.validate = .ok ()
    ∧ (prepare bypassBlock bypassGraph 2).Gives bypassCluster () bypassCluster
    ∧ (selectLocalDrivers bypassBlock bypassGraph bypassNets).Gives bypassCluster () drivenBypass
    ∧ drivenBypass.locals.pins[4]? = some { selected := some ⟨1, 4, 1, 2⟩ }
    ∧ knownNet bypassBlock bypassGraph bypassCluster 4 = .ok (some 0)
    ∧ inputsOf bypassBlock bypassCluster 4 = .ok [⟨3, 3⟩, ⟨4, 1⟩]
    ∧ Resolves bypassBlock bypassGraph bypassCluster bypassPins 0 3
    ∧ ¬ Relation.ReflTransGen (Copies bypassBlock bypassCluster bypassPins) 3 4
  := by
  refine ⟨by decide, by constructor <;> decide, selectLocalDrivers_bypass, rfl, by decide,
    by decide, ?_, ?_⟩
  · have hbuffer : Drives bypassPins 3 2 := ⟨{ selected := some ⟨2, 0, 0, 1⟩ }, _, rfl, rfl, rfl⟩
    apply Resolves.beyond (by decide) hbuffer
    apply Resolves.here (by decide)
  · -- from the buffer on, copies lead to the first input, and not to the table
    have hcopies : ∀ p ∈ [3, 2, 0], ∀ q ∈ (dependency bypassBlock bypassCluster bypassPins
        p).toOption.join, q ∈ [3, 2, 0] := by
      decide
    have hreach : ∀ q, Relation.ReflTransGen (Copies bypassBlock bypassCluster bypassPins) 3 q →
        q ∈ [3, 2, 0] := by
      intro q hq
      induction hq with
      | refl => decide
      | @tail p q _ hq ih =>
        apply hcopies p ih
        rw [hq]
        rfl
    intro htable
    cases hreach 4 htable
    contradiction

end RoutingFabric.Cluster
