import RoutingFabric.Export.Pins
import RoutingFabric.Fabric.Parasitic
import RoutingFabric.Proofs.BlockGraph.Building

/-!
# Names that end

The name of a block is made of the names of the blocks above it, and that of a pin of the name of
its block. In a valid graph a name is found exactly when the blocks above do not go round in a loop,
and looking for it has no end otherwise. A graph may be valid and have such a loop. One that is
built by additions has none, since blocks come after the blocks they are in.
-/

namespace RoutingFabric.BlockGraph

open Relation

variable {b : BlockGraph} {id : BlockId} {pin : PinId} {p : Pin}

/-- A block that is above this one, or is this one, is above itself. -/
def Looped (b : BlockGraph) (id : BlockId) : Prop :=
  ∃ q, ReflTransGen b.Above q id ∧ TransGen b.Above q q

/-! ### Blocks in loops -/

/-- A block in or below a loop has a parent which is in or below the same. -/
theorem Looped.exists_above (h : b.Looped id) : ∃ above, b.Above above id ∧ b.Looped above := by
  obtain ⟨q, hreach, hloop⟩ := h
  rcases ReflTransGen.cases_tail hreach with rfl | ⟨above, hreach, habove⟩
  · obtain ⟨above, hreach, habove⟩ := TransGen.tail'_iff.mp hloop
    exact ⟨above, habove, _, hreach, hloop⟩
  · exact ⟨above, habove, q, hreach, hloop⟩

/-- The name of a block in or below a loop does not end within any number of blocks. -/
theorem pathOf_of_looped (h : b.Looped id) (more : Nat) (below : List String) :
  b.pathOf more id below = fault .endless
  := by
  induction more generalizing id below with
  | zero => rfl
  | succ more ih =>
    obtain ⟨above, ⟨block, mode, hblock, hparent⟩, hlooped⟩ := h.exists_above
    have hread : b.block id = .ok block := entry_eq_ok_iff.mpr hblock
    rw [pathOf, hread, ok_bind, hparent]
    apply ih hlooped

/-- Looking for the name of a block in or below a loop has no end. -/
theorem blockPath_of_looped (h : b.Looped id) : b.blockPath id = fault .endless := by
  rw [blockPath, pathOf_of_looped h]
  rfl

/-- Where there are more blocks above each other than there are, the first is in or below a loop. -/
theorem looped_of_isChain {ids : List BlockId}
    (hchain : (id :: ids).IsChain (fun q above => b.Above above q))
    (hbound : ∀ q ∈ id :: ids, q < b.blocks.size) (hlength : b.blocks.size < (id :: ids).length) :
  b.Looped id
  := by
  have hreach : ∀ q ∈ id :: ids, ReflTransGen b.Above q id := by
    apply hchain.induction
    · intro q above habove hq
      apply hq.head habove
    · intro _
      apply ReflTransGen.refl
  obtain ⟨q, hq, hloop⟩ := exists_loop_of_isChain hchain hbound hlength
  exact ⟨q, hreach q hq, hloop⟩

/-! ### Names of valid graphs -/

/-- A block that is not in or below a loop has a name. -/
theorem Closed.exists_blockPath (hb : b.Closed) (hid : id < b.blocks.size)
    (hends : ¬ b.Looped id) :
  ∃ path, b.blockPath id = .ok path
  := by
  have hfaults : FaultsIn (fun _ => b.Looped id) (b.blockPath id) := by
    apply FaultsIn.bind
    · apply (hb.faultsIn_pathOf hid).imp
      rintro e ⟨-, ids, hlength, hchain, hbound⟩
      apply looped_of_isChain hchain hbound
      rw [List.length_cons, hlength]
      omega
    · rintro names -
      apply faultsIn_ok
  apply (problemless_blockPath id).exists_ok
  apply hfaults.imp
  rintro - hlooped
  apply hends hlooped

/-- The name of a pin ends in the pin, after the name of its block. -/
theorem pinName_eq (hp : b.pins[pin]? = some p) :
  b.pinName pin
    = (do return (← b.blockPath p.block) ++ "." ++ p.port ++ "[" ++ Text.decimal p.bit ++ "]")
  := by
  have hread : b.pin pin = .ok p := entry_eq_ok_iff.mpr hp
  rw [pinName, hread, ok_bind]

/-- A pin of a block that is not in or below a loop has a name. -/
theorem Closed.exists_pinName (hb : b.Closed) (hp : b.pins[pin]? = some p)
    (hends : ¬ b.Looped p.block) :
  ∃ name, b.pinName pin = .ok name
  := by
  obtain ⟨path, hpath⟩ := hb.exists_blockPath (hb.pins pin p hp).1 hends
  rw [pinName_eq hp, hpath]
  exact ⟨_, rfl⟩

/-- Looking for the name of a pin of a block in or below a loop has no end. -/
theorem pinName_of_looped (hp : b.pins[pin]? = some p) (h : b.Looped p.block) :
  b.pinName pin = fault .endless
  := by
  rw [pinName_eq hp, blockPath_of_looped h]
  rfl

/-- Looking for the name of a pin ends unless the block of the pin is in or below a loop. -/
theorem Closed.faultsIn_pinName_looped {P : Fault → Prop} (hb : b.Closed)
    (hp : b.pins[pin]? = some p) (hP : b.Looped p.block → P .endless) :
  FaultsIn P (b.pinName pin)
  := by
  by_cases hloop : b.Looped p.block
  · rw [pinName_of_looped hp hloop]
    apply faultsIn_fault (hP hloop)
  · obtain ⟨name, hname⟩ := hb.exists_pinName hp hloop
    rw [hname]
    apply faultsIn_ok

/-- In a graph that is well built no block is above itself. -/
theorem WellBuilt.not_above_self (h : b.WellBuilt) (id : BlockId) : ¬ TransGen b.Above id id := by
  have hlt : ∀ above id, b.Above above id → above < id := by
    rintro above id ⟨block, mode, hblock, hparent⟩
    have hne : id ≠ root := by
      rintro rfl
      obtain ⟨top, htop, hnone⟩ := h.nested.top
      cases htop.symm.trans hblock
      rw [hnone] at hparent
      cases hparent
    obtain ⟨above', mode', upper, hparent', hbefore, -⟩ := h.nested.below id block hblock hne
    cases hparent.symm.trans hparent'
    apply hbefore
  intro hloop
  have hself : TransGen (· < ·) id id := TransGen.mono hlt id id hloop
  rw [transGen_eq_self] at hself
  apply Nat.lt_irrefl id hself

/-! ### Listings of names -/

/-- Looking for the name of a pin has an end where no block is above itself. -/
theorem Closed.ends_pinName (hb : b.Closed) (hloops : ∀ id, ¬ TransGen b.Above id id)
    (pin : PinId) :
  FaultsIn (· ≠ .endless) (b.pinName pin)
  := by
  apply FaultsIn.bind
  · apply faultsIn_entry_of_imp
    rintro - ⟨⟩
  · intro p hp
    rw [BlockGraph.pin, entry_eq_ok_iff] at hp
    apply FaultsIn.bind
    · apply (hb.faultsIn_blockPath (hb.pins pin p hp).1).imp
      rintro e ⟨-, id, hloop⟩
      cases hloops id hloop
    · rintro path -
      apply faultsIn_ok

/-- Listing the pins that a round changed has an end where no block is above itself. -/
theorem Closed.ends_changingPinsOf (hb : b.Closed) (hloops : ∀ id, ¬ TransGen b.Above id id)
    {f : Fabric} {c : Cluster} (htype : f.blockGraphOf c = .ok b) :
  FaultsIn (· ≠ .endless) (f.changingPinsOf c)
  := by
  rw [Fabric.changingPinsOf, htype, ok_bind]
  apply faultsIn_mapM
  rintro pin -
  apply (hb.ends_pinName hloops pin).bind
  rintro name -
  apply faultsIn_ok

/-- Listing what is found about the pins of a cluster has an end where no block is above itself. -/
theorem Closed.ends_clusterValue (hb : b.Closed) (hloops : ∀ id, ¬ TransGen b.Above id id)
    (t : NetTable) (c : Cluster) :
  FaultsIn (· ≠ .endless) (Export.clusterValue t b c)
  := by
  have hreport : ∀ s, FaultsIn (· ≠ .endless) (Export.reportOf t b s) := by
    intro s
    unfold Export.reportOf
    split
    · apply (hb.ends_pinName hloops _).bind
      rintro name -
      apply faultsIn_ok
    · apply faultsIn_ok
  apply FaultsIn.bind
  · apply FaultsIn.bind
    · apply faultsIn_mapM
      rintro ⟨s, pin⟩ -
      apply (hreport s).bind
      rintro report -
      apply (hb.ends_pinName hloops pin).bind
      rintro name -
      apply faultsIn_ok
    · rintro reports -
      apply faultsIn_ok
  · rintro pins -
    apply faultsIn_ok

/-- In a valid graph, a block and its pins have names exactly when the block is not in or below a
loop. Looking for the names has no end otherwise. Where no block is above itself, the pins that a
round changed are listed, and what is found about the pins of a cluster, without looking for a name
that has no end. -/
theorem named_iff_of_validate (h : b.validate = .ok ()) :
  (∀ id < b.blocks.size,
      ¬ b.Looped id ∧ (∃ path, b.blockPath id = .ok path)
      ∨ b.Looped id ∧ b.blockPath id = fault .endless)
    ∧ (∀ (pin : PinId) p, b.pins[pin]? = some p →
      ¬ b.Looped p.block ∧ (∃ name, b.pinName pin = .ok name)
      ∨ b.Looped p.block ∧ b.pinName pin = fault .endless)
    ∧ ((∀ id, ¬ TransGen b.Above id id) → ∀ (f : Fabric) c t, f.blockGraphOf c = .ok b →
      FaultsIn (· ≠ .endless) (f.changingPinsOf c)
        ∧ FaultsIn (· ≠ .endless) (Export.clusterValue t b c))
  := by
  have hb := closed_of_validate h
  refine ⟨?_, ?_, ?_⟩
  · intro id hid
    by_cases hloop : b.Looped id
    · right
      exact ⟨hloop, blockPath_of_looped hloop⟩
    · left
      exact ⟨hloop, hb.exists_blockPath hid hloop⟩
  · intro pin p hp
    by_cases hloop : b.Looped p.block
    · right
      exact ⟨hloop, pinName_of_looped hp hloop⟩
    · left
      exact ⟨hloop, hb.exists_pinName hp hloop⟩
  · intro hloops f c t htype
    exact ⟨hb.ends_changingPinsOf hloops htype, hb.ends_clusterValue hloops t c⟩

/-- The output of the block of a cell has a name, and all that is listed about the pins ends. -/
theorem named_cell :
  cellGraph.validate = .ok ()
    ∧ (∃ path, cellGraph.blockPath 1 = .ok path) ∧ (∃ name, cellGraph.pinName 5 = .ok name)
    ∧ ∀ (f : Fabric) c t, f.blockGraphOf c = .ok cellGraph →
      FaultsIn (· ≠ .endless) (f.changingPinsOf c)
        ∧ FaultsIn (· ≠ .endless) (Export.clusterValue t cellGraph c)
  := by
  have hloops := ((wellBuilt_ofName "clb").addAll addAll_cell).not_above_self
  have hends : ∀ id, ¬ cellGraph.Looped id := by
    rintro id ⟨q, -, hloop⟩
    apply hloops q hloop
  have hvalid : cellGraph.validate = .ok () := by decide +kernel
  obtain ⟨hblocks, hpins, hlistings⟩ := named_iff_of_validate hvalid
  have hblock := (hblocks 1 (by decide)).resolve_right fun h => hends 1 h.1
  have hpin := (hpins 5 _ rfl).resolve_right fun h => hends _ h.1
  exact ⟨hvalid, hblock.2, hpin.2, hlistings hloops⟩

/-- A cluster with a block that is its own parent. -/
def ringGraph : BlockGraph where
  name := "clb"
  blocks := #[
    { name := "clb", type := "clb" },
    { name := "lut[0]", type := "lut", parent := some (1, 0), depth := 1, pins := [0] }]
  pins := #[{ block := 1, port := "out", bit := 0, kind := .output }]

/-- The block is accepted, but neither it nor its pin has a name. -/
theorem unnamed_ring :
  ringGraph.validate = .ok () ∧ ringGraph.Above 1 1
    ∧ ringGraph.blockPath 1 = fault .endless ∧ ringGraph.pinName 0 = fault .endless
  := ⟨by decide +kernel, ⟨_, 0, rfl, rfl⟩, by decide +kernel, by decide +kernel⟩

end RoutingFabric.BlockGraph
