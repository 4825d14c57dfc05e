import RoutingFabric.Bitstream
import RoutingFabric.Proofs.BlockGraph.Building

/-!
# Multiplexers in front of pins

A graph is valid when its references point into it, and when each mode of each block has one
interconnect at most whose edges reach a pin. So the edges in use that belong to one block are the
inputs of one multiplexer. Edges of several blocks may reach the same pin, though, and be in use
together: a pin has one multiplexer in all modes exactly when its edges belong to one block.
-/

namespace RoutingFabric.BlockGraph

/-! ### Edges of a pin -/

/-- The interconnect of an edge. -/
def wireOf? (b : BlockGraph) (e : EdgeId) : Option InterconnectId :=
  b.edges[e]?.map (·.interconnect)

/-- The block and the mode of it that an edge belongs to. -/
def placeOf? (b : BlockGraph) (e : EdgeId) : Option (BlockId × Nat) :=
  (b.wireOf? e).bind fun id => b.interconnects[id]?.map fun ic => (ic.owner, ic.mode)

/-- The block that an edge belongs to. -/
def ownerOf? (b : BlockGraph) (e : EdgeId) : Option BlockId := (b.placeOf? e).map (·.1)

/-- Whether an edge belongs to a mode that is in use. -/
def isLive (b : BlockGraph) (modes : Array (Option Nat)) (e : EdgeId) : Bool :=
  (b.placeOf? e).any fun (owner, mode) => modeOf modes owner = mode

/-- Each mode of each block has one interconnect whose edges reach the pin. -/
def Unmixed (b : BlockGraph) (p : Pin) : Prop :=
  ∃ wire : BlockId × Nat → InterconnectId, ∀ e ∈ p.inputs, b.wireOf? e = (b.placeOf? e).map wire

/-- The edges that reach a pin belong to one block. -/
def SingleOwner (b : BlockGraph) (p : Pin) : Prop :=
  ∀ e ∈ p.inputs, ∀ e' ∈ p.inputs, b.ownerOf? e = b.ownerOf? e'

instance (b : BlockGraph) (p : Pin) : Decidable (b.SingleOwner p) :=
  inferInstanceAs (Decidable (∀ e ∈ p.inputs, ∀ e' ∈ p.inputs, b.ownerOf? e = b.ownerOf? e'))

/-- The edges of an interconnect that reach a pin, which are the inputs of its multiplexer there. -/
def muxInputs (b : BlockGraph) (p : Pin) (ic : InterconnectId) : List EdgeId :=
  p.inputs.filter fun e => b.wireOf? e = some ic

/-- The edges are none, or all inputs of one multiplexer. -/
def IsMux (b : BlockGraph) (p : Pin) (edges : List EdgeId) : Prop :=
  edges = [] ∨ ∃ ic < b.interconnects.size, edges = b.muxInputs p ic

variable {b : BlockGraph} {p : Pin} {pin : PinId} {e : EdgeId} {modes : Array (Option Nat)}

/-- An edge that is there is of an interconnect that is there. -/
theorem Closed.exists_wire (hb : b.Closed) (he : e < b.edges.size) :
  ∃ edge ic, b.edges[e]? = some edge ∧ b.interconnects[edge.interconnect]? = some ic
    ∧ b.wireOf? e = some edge.interconnect ∧ b.placeOf? e = some (ic.owner, ic.mode)
  := by
  have hedge : b.edges[e]? = some b.edges[e] := Array.getElem?_eq_getElem he
  have hic := Array.getElem?_eq_getElem (hb.edges e b.edges[e] hedge).2.2
  refine ⟨_, _, hedge, hic, ?_, ?_⟩
  · rw [wireOf?, hedge]
    rfl
  · rw [placeOf?, wireOf?, hedge, Option.map_some, Option.bind_some, hic]
    rfl

/-- The edges that a pin lists as its inputs are there. -/
theorem Closed.lt_of_input (hb : b.Closed) (hp : b.pins[pin]? = some p) :
  ∀ e ∈ p.inputs, e < b.edges.size
  := by
  intro e he
  apply (hb.pins pin p hp).2 e (List.mem_append_left _ he)

/-! ### Validity -/

/-- The interconnects chosen for modes are the ones that were seen in them. -/
def Keeps (wire : BlockId × Nat → InterconnectId) (seen : Seen) : Prop :=
  ∀ place first, seen.lookup place = some first → wire place = first

/-- One more mode is seen, with its interconnect. -/
theorem keeps_cons_iff {wire : BlockId × Nat → InterconnectId} {seen : Seen}
    {place : BlockId × Nat} {ic : InterconnectId} (hnone : seen.lookup place = none) :
  Keeps wire ((place, ic) :: seen) ↔ ic = wire place ∧ Keeps wire seen
  := by
  constructor
  · intro hkeeps
    constructor
    · symm
      apply hkeeps
      apply List.lookup_cons_self
    · intro place' first hfirst
      apply hkeeps
      rw [List.lookup_cons]
      split
      · rename_i heq
        rw [eq_of_beq heq, hnone] at hfirst
        cases hfirst
      · exact hfirst
  · rintro ⟨hwire, hkeeps⟩ place' first hfirst
    rw [List.lookup_cons] at hfirst
    split at hfirst
    · rename_i heq
      rw [eq_of_beq heq, ← hwire]
      apply Option.some.inj hfirst
    · apply hkeeps place' first hfirst

/-- Edges pass the comparison exactly when each mode has one interconnect that they are of, which is
the one that was seen in that mode before, if any. -/
theorem Closed.checkMixed_eq_ok_iff (hb : b.Closed) {seen : Seen} {edges : List EdgeId}
    (hedges : ∀ e ∈ edges, e < b.edges.size) :
  b.checkMixed pin seen edges = .ok ()
    ↔ ∃ wire, Keeps wire seen ∧ ∀ e ∈ edges, b.wireOf? e = (b.placeOf? e).map wire
  := by
  induction edges generalizing seen with
  | nil =>
    refine ⟨fun _ => ⟨fun place => (seen.lookup place).getD 0, ?_, by simp⟩, fun _ => rfl⟩
    intro place first hfirst
    simp only [hfirst, Option.getD_some]
  | cons e edges ih =>
    obtain ⟨he, hedges⟩ := List.forall_mem_cons.mp hedges
    obtain ⟨edge, ic, hedge, hic, hwire, hplace⟩ := hb.exists_wire he
    have hread : b.edge e = .ok edge := entry_eq_ok_iff.mpr hedge
    have hread' : b.interconnect edge.interconnect = .ok ic := entry_eq_ok_iff.mpr hic
    have hhead : ∀ wire, b.wireOf? e = (b.placeOf? e).map wire
        ↔ edge.interconnect = wire (ic.owner, ic.mode) := by
      intro wire
      rw [hwire, hplace, Option.map_some, Option.some_inj]
    simp only [List.forall_mem_cons, hhead]
    rw [checkMixed, hread, ok_bind]
    dsimp only
    rw [hread', ok_bind]
    split
    · rename_i first hfirst
      split
      · -- the interconnect is the one seen before, so that the edge adds nothing
        rename_i hsame
        rw [ih hedges]
        constructor
        · rintro ⟨wire, hkeeps, hrest⟩
          exact ⟨wire, hkeeps, hsame.symm.trans (hkeeps _ _ hfirst).symm, hrest⟩
        · rintro ⟨wire, hkeeps, -, hrest⟩
          exact ⟨wire, hkeeps, hrest⟩
      · rename_i hother
        constructor
        · intro h
          obtain ⟨_, -, h⟩ := bind_eq_ok_iff.mp h
          obtain ⟨_, -, h⟩ := bind_eq_ok_iff.mp h
          cases fail_ne_ok h
        · rintro ⟨wire, hkeeps, hwire, -⟩
          cases hother ((hkeeps _ _ hfirst).symm.trans hwire.symm)
    · rename_i hnone
      rw [ih hedges]
      simp only [keeps_cons_iff hnone, and_assoc, and_left_comm]

/-- The edges of a pin pass the comparison exactly when each mode has one interconnect for it. -/
theorem Closed.unmixed_iff (hb : b.Closed) (hp : b.pins[pin]? = some p) :
  b.checkMixed pin [] p.inputs = .ok () ↔ b.Unmixed p
  := by
  rw [hb.checkMixed_eq_ok_iff (hb.lt_of_input hp)]
  constructor
  · rintro ⟨wire, -, hwire⟩
    exact ⟨wire, hwire⟩
  · rintro ⟨wire, hwire⟩
    refine ⟨wire, ?_, hwire⟩
    rintro place first ⟨⟩

/-- A graph is valid exactly when its references point into it, and each mode has one interconnect
for each pin. -/
theorem validate_eq_ok_iff :
  b.validate = .ok () ↔ b.Closed ∧ ∀ (pin : PinId) p, b.pins[pin]? = some p → b.Unmixed p
  := by
  rw [validate, unit_bind_eq_ok_iff, checkReferences_eq_ok_iff, forM_zipIdx_eq_ok_iff]
  constructor
  · rintro ⟨hb, hpins⟩
    refine ⟨hb, ?_⟩
    intro pin p hp
    apply (hb.unmixed_iff hp).mp (hpins pin p hp)
  · rintro ⟨hb, hpins⟩
    refine ⟨hb, ?_⟩
    intro pin p hp
    apply (hb.unmixed_iff hp).mpr (hpins pin p hp)

/-! ### Edges in use -/

/-- The edges that reach a pin in the modes in use are those of its inputs that belong to them. -/
theorem Closed.activeInputs_eq (hb : b.Closed) (hp : b.pins[pin]? = some p) :
  b.activeInputs modes pin = .ok (p.inputs.filter (b.isLive modes))
  := by
  have hactive : ∀ e ∈ p.inputs,
      (do return if ← b.isActive modes e then some e else none : Outcome (Option EdgeId))
        = .ok (if b.isLive modes e then some e else none) := by
    intro e he
    obtain ⟨edge, ic, hedge, hic, -, hplace⟩ := hb.exists_wire (hb.lt_of_input hp e he)
    have hread : b.edge e = .ok edge := entry_eq_ok_iff.mpr hedge
    have hread' : b.interconnect edge.interconnect = .ok ic := entry_eq_ok_iff.mpr hic
    rw [isActive, hread, ok_bind, hread', ok_bind, isLive, hplace]
    rfl
  have hread : b.pin pin = .ok p := entry_eq_ok_iff.mpr hp
  rw [activeInputs, hread, ok_bind, filterMapM_eq_ok hactive, ← List.filterMap_eq_filter]
  rfl

/-- Edges of one interconnect belong to the same mode. -/
theorem placeOf?_eq_of_wireOf?_eq {e' : EdgeId} (h : b.wireOf? e = b.wireOf? e') :
  b.placeOf? e = b.placeOf? e'
  := by
  rw [placeOf?, placeOf?, h]

/-- An edge in use belongs to the mode that its block is used in. -/
theorem isLive_iff : b.isLive modes e = true
    ↔ ∃ owner, b.placeOf? e = some (owner, modeOf modes owner)
  := by
  rw [isLive, Option.any_eq_true]
  constructor
  · rintro ⟨⟨owner, mode⟩, hplace, hmode⟩
    obtain rfl := of_decide_eq_true hmode
    exact ⟨owner, hplace⟩
  · rintro ⟨owner, hplace⟩
    exact ⟨_, hplace, decide_eq_true rfl⟩

/-- An edge of a block is in use exactly when it belongs to the mode that the block is used in. -/
theorem live_of_owner_iff {owner : BlockId} :
  b.ownerOf? e = some owner ∧ b.isLive modes e = true
    ↔ b.placeOf? e = some (owner, modeOf modes owner)
  := by
  rw [isLive_iff]
  constructor
  · rintro ⟨howner, owner', hplace⟩
    rw [ownerOf?, hplace] at howner
    cases howner
    exact hplace
  · intro hplace
    refine ⟨?_, owner, hplace⟩
    rw [ownerOf?, hplace, Option.map_some]

/-- The edges in use that belong to the block of one of them are the inputs of its multiplexer. -/
theorem Unmixed.filter_eq_muxInputs (hmixed : b.Unmixed p) {ic : InterconnectId} {owner : BlockId}
    (he : e ∈ p.inputs) (hplace : b.placeOf? e = some (owner, modeOf modes owner))
    (hwire : b.wireOf? e = some ic) :
  (p.inputs.filter (b.isLive modes)).filter (fun e => b.ownerOf? e = some owner)
    = b.muxInputs p ic
  := by
  obtain ⟨wire, hmode⟩ := hmixed
  rw [List.filter_filter, muxInputs]
  apply List.filter_congr
  intro e' he'
  rw [Bool.eq_iff_iff, Bool.and_eq_true, decide_eq_true_iff, decide_eq_true_iff, live_of_owner_iff,
    ← hplace, ← hwire]
  constructor
  · intro hsame
    rw [hmode e' he', hmode e he, hsame]
  · apply placeOf?_eq_of_wireOf?_eq

/-- The edges in use that belong to one block are none, or all inputs of one multiplexer. -/
theorem Closed.isMux_of_owner (hb : b.Closed) (hp : b.pins[pin]? = some p) (hmixed : b.Unmixed p)
    (modes : Array (Option Nat)) (owner : BlockId) :
  b.IsMux p ((p.inputs.filter (b.isLive modes)).filter fun e => b.ownerOf? e = some owner)
  := by
  rw [IsMux, or_iff_not_imp_left]
  intro hsome
  obtain ⟨e, he⟩ := List.exists_mem_of_ne_nil _ hsome
  rw [List.mem_filter, List.mem_filter, decide_eq_true_iff] at he
  obtain ⟨⟨he, hlive⟩, howner⟩ := he
  obtain ⟨edge, ic, -, hic, hwire, -⟩ := hb.exists_wire (hb.lt_of_input hp e he)
  use edge.interconnect, (Array.getElem?_eq_some_iff.mp hic).1
  apply hmixed.filter_eq_muxInputs he (live_of_owner_iff.mp ⟨howner, hlive⟩) hwire

/-- Where the edges that reach a pin belong to one block, those in use are none, or all inputs of
one multiplexer. -/
theorem Closed.isMux_of_singleOwner (hb : b.Closed) (hp : b.pins[pin]? = some p)
    (hmixed : b.Unmixed p) (hsingle : b.SingleOwner p) (modes : Array (Option Nat)) :
  b.IsMux p (p.inputs.filter (b.isLive modes))
  := by
  cases hedges : p.inputs with
  | nil =>
    left
    rfl
  | cons e edges =>
    have he : e ∈ p.inputs := by
      rw [hedges]
      apply List.mem_cons_self
    obtain ⟨edge, ic, -, -, -, hplace⟩ := hb.exists_wire (hb.lt_of_input hp e he)
    have hmux := hb.isMux_of_owner hp hmixed modes ic.owner
    rwa [List.filter_eq_self.mpr, hedges] at hmux
    intro e' he'
    rw [decide_eq_true_iff, ← hsingle e he e' (List.mem_filter.mp he').1, ownerOf?, hplace]
    rfl

/-! ### Pins with several owners -/

/-- The modes in which one block is used in one mode, and all others in another. -/
def twoModes (size : Nat) (owner : BlockId) (mode other : Nat) : Array (Option Nat) :=
  Array.ofFn fun id : Fin size => some (if id.val = owner then mode else other)

/-- A block of a graph is used in the mode that is meant for it. -/
theorem modeOf_twoModes {size : Nat} {id : BlockId} (hid : id < size) (owner : BlockId)
    (mode other : Nat) :
  modeOf (twoModes size owner mode other) id = if id = owner then mode else other
  := by
  rw [modeOf, twoModes, Array.getElem?_ofFn, dif_pos hid]
  rfl

/-- Edges of two blocks are in use together in some modes. -/
theorem Closed.exists_live (hb : b.Closed) {e' : EdgeId} (he : e < b.edges.size)
    (he' : e' < b.edges.size) (hne : b.ownerOf? e ≠ b.ownerOf? e') :
  ∃ modes, b.isLive modes e = true ∧ b.isLive modes e' = true
  := by
  obtain ⟨edge, ic, -, hic, -, hplace⟩ := hb.exists_wire he
  obtain ⟨edge', ic', -, hic', -, hplace'⟩ := hb.exists_wire he'
  have howner : ic'.owner ≠ ic.owner := by
    intro howner
    apply hne
    rw [ownerOf?, ownerOf?, hplace, hplace', Option.map_some, Option.map_some, howner]
  have hlt : ∀ {id : Nat} {ic₀ : Interconnect}, b.interconnects[id]? = some ic₀ →
      ic₀.owner < b.blocks.size := by
    intro id ic₀ hic₀
    obtain ⟨block, hblock, -⟩ := hb.interconnects id ic₀ hic₀
    apply (Array.getElem?_eq_some_iff.mp hblock).1
  refine ⟨twoModes b.blocks.size ic.owner ic.mode ic'.mode, isLive_iff.mpr ⟨ic.owner, ?_⟩,
    isLive_iff.mpr ⟨ic'.owner, ?_⟩⟩
  · rw [hplace, modeOf_twoModes (hlt hic), if_pos rfl]
  · rw [hplace', modeOf_twoModes (hlt hic'), if_neg howner]

/-- Where edges of two blocks reach a pin, there are modes in which both are in use, and belong to
no one multiplexer. -/
theorem Closed.singleOwner_of_isMux (hb : b.Closed) (hp : b.pins[pin]? = some p)
    (hmux : ∀ modes, b.IsMux p (p.inputs.filter (b.isLive modes))) :
  b.SingleOwner p
  := by
  intro e he e' he'
  by_contra hne
  obtain ⟨modes, hlive, hlive'⟩ :=
    hb.exists_live (hb.lt_of_input hp e he) (hb.lt_of_input hp e' he') hne
  have hmem := List.mem_filter.mpr ⟨he, hlive⟩
  have hmem' := List.mem_filter.mpr ⟨he', hlive'⟩
  rcases hmux modes with hnone | ⟨id, -, hall⟩
  · rw [hnone] at hmem
    cases hmem
  · rw [hall, muxInputs, List.mem_filter, decide_eq_true_iff] at hmem hmem'
    apply hne
    rw [ownerOf?, ownerOf?, placeOf?_eq_of_wireOf?_eq (hmem.2.trans hmem'.2.symm)]

/-- In a valid graph, the edges in use that reach a pin and belong to one block are none, or all
inputs of one multiplexer. All the edges in use are so, whatever the modes, exactly when the edges
that reach the pin belong to one block; what is encoded for the pin is then the size of one
multiplexer. -/
theorem singleOwner_iff_of_validate (h : b.validate = .ok ()) (hp : b.pins[pin]? = some p) :
  (∀ modes, ∃ active, b.activeInputs modes pin = .ok active
      ∧ ∀ owner, b.IsMux p (active.filter fun e => b.ownerOf? e = some owner))
    ∧ (b.SingleOwner p
      ↔ ∀ modes active, b.activeInputs modes pin = .ok active → b.IsMux p active)
    ∧ (b.SingleOwner p → ∀ c s, Bitstream.pinSetting b c pin = .ok (some s) →
      ∃ ic < b.interconnects.size, s.size = (b.muxInputs p ic).length)
  := by
  obtain ⟨hb, hmixed⟩ := validate_eq_ok_iff.mp h
  have hmux := hb.isMux_of_singleOwner hp (hmixed pin p hp)
  refine ⟨?_, ⟨?_, ?_⟩, ?_⟩
  · intro modes
    exact ⟨_, hb.activeInputs_eq hp, hb.isMux_of_owner hp (hmixed pin p hp) modes⟩
  · intro hsingle modes active hactive
    rw [hb.activeInputs_eq hp] at hactive
    cases hactive
    apply hmux hsingle
  · intro hall
    apply hb.singleOwner_of_isMux hp
    intro modes
    apply hall modes _ (hb.activeInputs_eq hp)
  · intro hsingle c s hs
    rw [Bitstream.pinSetting, hb.activeInputs_eq hp, ok_bind] at hs
    dsimp only at hs
    split at hs
    · cases pure_eq_ok_iff.mp hs
    · rename_i hfan
      obtain ⟨state, -, hs⟩ := bind_eq_ok_iff.mp hs
      cases pure_eq_ok_iff.mp hs
      rcases hmux hsingle c.modes with hnone | ⟨ic, hic, hall⟩
      · rw [hnone] at hfan
        cases hfan (by decide)
      · use ic, hic
        rw [hall]

/-- The edges in use that reach an input of the block of a cell are those of its crossbar. -/
theorem isMux_cell :
  cellGraph.validate = .ok ()
    ∧ cellGraph.activeInputs #[some 0, none] 2 = .ok [1, 2, 3]
    ∧ ∀ modes active, cellGraph.activeInputs modes 2 = .ok active →
      cellGraph.IsMux cellGraph.pins[2] active
  := by
  have hvalid : cellGraph.validate = .ok () := by decide +kernel
  have hsingle : cellGraph.SingleOwner cellGraph.pins[2] := by decide +kernel
  have hpin : cellGraph.pins[2]? = some cellGraph.pins[2] := rfl
  obtain ⟨-, hmux, -⟩ := singleOwner_iff_of_validate hvalid hpin
  exact ⟨hvalid, by decide +kernel, hmux.mp hsingle⟩

/-- A cluster with two blocks, each of which connects its output to that of the cluster. -/
def siblingsGraph : BlockGraph where
  name := "clb"
  blocks := #[
    { name := "clb", type := "clb", pins := [0]
      modes := [{ name := "logic", children := [1, 2] }] },
    { name := "a[0]", type := "a", parent := some (0, 0), depth := 1, pins := [1]
      modes := [{ name := "on", interconnects := [0] }] },
    { name := "b[0]", type := "b", parent := some (0, 0), depth := 1, pins := [2]
      modes := [{ name := "on", interconnects := [1] }, { name := "off" }] }]
  pins := #[
    { block := 0, port := "O", bit := 0, kind := .output, boundary := some 0, inputs := [0, 1] },
    { block := 1, port := "out", bit := 0, kind := .output, outputs := [0] },
    { block := 2, port := "out", bit := 0, kind := .output, outputs := [1] }]
  edges := #[⟨1, 0, 0⟩, ⟨2, 0, 1⟩]
  interconnects := #[
    { name := "x", kind := .wire, owner := 1, mode := 0, edges := [0] },
    { name := "y", kind := .wire, owner := 2, mode := 0, edges := [1] }]

/-- Edges of two interconnects reach the output of the cluster while both blocks are on. -/
theorem two_wires_siblings :
  siblingsGraph.validate = .ok ()
    ∧ siblingsGraph.activeInputs #[some 0, some 0, some 0] 0 = .ok [0, 1]
    ∧ ¬ ∃ ic, ∀ e ∈ [0, 1], siblingsGraph.wireOf? e = some ic
  := by
  refine ⟨by decide +kernel, by decide +kernel, ?_⟩
  rintro ⟨ic, hall⟩
  cases Option.some.inj (hall 0 (by decide))
  cases Option.some.inj (hall 1 (by decide))

end RoutingFabric.BlockGraph
