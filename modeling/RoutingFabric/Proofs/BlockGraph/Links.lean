import RoutingFabric.Proofs.BlockGraph.References
import RoutingFabric.Proofs.Listed

/-!
# Block graphs that are well built

A block graph that is well built is linked in both directions: edges, pins, blocks and interconnects
are listed once where they say that they belong, and nowhere else. Blocks come after the blocks they
are in, and the pins of the root are numbered. What is stored in such a graph points into it. The
tables are treated apart here, since most additions to a graph leave most of its tables alone.
-/

namespace RoutingFabric.BlockGraph

/-- The list that a mode of a block holds. -/
def inMode (blocks : Array Block) (list : Mode → List Nat) (k : BlockId × Nat) :
    Option (List Nat) :=
  blocks[k.1]?.bind fun block => block.modes[k.2]?.map list

/-- Edges are listed by the pins on their two sides and by their interconnects. -/
structure EdgesListed (b : BlockGraph) : Prop where
  inputs : Listed b.edges (fun e => some e.target) fun p => b.pins[p]?.map (·.inputs)
  outputs : Listed b.edges (fun e => some e.source) fun p => b.pins[p]?.map (·.outputs)
  wires : Listed b.edges (fun e => some e.interconnect) fun i => b.interconnects[i]?.map (·.edges)

/-- Pins are listed by their blocks, and blocks and interconnects by the modes they are in. -/
structure BlocksListed (b : BlockGraph) : Prop where
  pins : Listed b.pins (fun p => some p.block) fun q => b.blocks[q]?.map (·.pins)
  children : Listed b.blocks (·.parent) (inMode b.blocks (·.children))
  interconnects : Listed b.interconnects (fun ic => some (ic.owner, ic.mode))
    (inMode b.blocks (·.interconnects))

/-- All blocks but the root have a parent. It comes before them, and is one less deep. -/
structure Nested (blocks : Array Block) : Prop where
  top : ∃ block, blocks[root]? = some block ∧ block.parent = none
  below : ∀ (id : BlockId) block, blocks[id]? = some block → id ≠ root →
    ∃ above mode upper, block.parent = some (above, mode) ∧ above < id
      ∧ blocks[above]? = some upper ∧ block.depth = upper.depth + 1

/-- The pins of the root are numbered in their order, and no others are. -/
structure Numbered (blocks : Array Block) (pins : Array Pin) : Prop where
  boundary : ∀ block, blocks[root]? = some block → ∀ (k : Nat) id, block.pins[k]? = some id →
    ∃ p, pins[id]? = some p ∧ p.boundary = some k
  inner : ∀ (id : PinId) p, pins[id]? = some p → p.block ≠ root → p.boundary = none

/-- The graph is linked in both directions, its blocks are nested, and its boundary is numbered. -/
structure WellBuilt (b : BlockGraph) : Prop where
  edges : b.EdgesListed
  blocks : b.BlocksListed
  nested : Nested b.blocks
  numbered : Numbered b.blocks b.pins

variable {b : BlockGraph} {list : Mode → List Nat}

/-- A mode that has lists is a mode of a block. -/
theorem exists_mode_of_inMode {blocks : Array Block} {id : BlockId} {mode : Nat} {l : List Nat}
    (h : inMode blocks list (id, mode) = some l) :
  ∃ block, blocks[id]? = some block ∧ mode < block.modes.length
  := by
  obtain ⟨block, hblock, h⟩ := Option.bind_eq_some_iff.mp h
  obtain ⟨m, hmode, -⟩ := Option.map_eq_some_iff.mp h
  exact ⟨block, hblock, (List.getElem?_eq_some_iff.mp hmode).1⟩

/-- What is stored in a graph that is well built points into it. -/
theorem WellBuilt.closed (h : b.WellBuilt) : b.Closed := by
  constructor
  case edges =>
    intro id e he
    exact ⟨h.edges.outputs.named_lt he rfl, h.edges.inputs.named_lt he rfl,
      h.edges.wires.named_lt he rfl⟩
  case pins =>
    intro id p hp
    refine ⟨h.blocks.pins.named_lt hp rfl, ?_⟩
    intro e he
    have hpin : ∀ list : Pin → List EdgeId, b.pins[id]?.map list = some (list p) := by
      intro list
      rw [hp, Option.map_some]
    rcases List.mem_append.mp he with hin | hout
    · apply h.edges.inputs.lt_size (hpin (·.inputs)) hin
    · apply h.edges.outputs.lt_size (hpin (·.outputs)) hout
  case blocks =>
    intro id block hblock above habove
    obtain ⟨l, hl⟩ := h.blocks.children.known id above
      (Option.bind_eq_some_iff.mpr ⟨block, hblock, habove⟩)
    obtain ⟨upper, hupper, -⟩ := exists_mode_of_inMode hl
    apply (Array.getElem?_eq_some_iff.mp hupper).1
  case interconnects =>
    intro id ic hic
    obtain ⟨l, hl⟩ := h.blocks.interconnects.known id (ic.owner, ic.mode)
      (Option.bind_eq_some_iff.mpr ⟨ic, hic, rfl⟩)
    apply exists_mode_of_inMode hl

/-! ### Lists of modes -/

/-- Modes keep their lists where blocks are changed in other ways. -/
theorem inMode_modify_of_eq {blocks : Array Block} {id : BlockId} {f : Block → Block}
    (hf : ∀ block (m : Nat), (f block).modes[m]?.map list = block.modes[m]?.map list)
    (k : BlockId × Nat) :
  inMode (blocks.modify id f) list k = inMode blocks list k
  := by
  rw [inMode, inMode, Array.getElem?_modify]
  split
  · rename_i heq
    cases blocks[k.1]? with
    | none => rfl
    | some block => apply hf
  · rfl

/-- Lists of modes that a change to a mode does not touch stay. -/
theorem inMode_modifyMode_of_eq {blocks : Array Block} {id : BlockId} {mode : Nat}
    {f : Mode → Mode} (hf : ∀ m, list (f m) = list m) (k : BlockId × Nat) :
  inMode (blocks.modify id fun block => { block with modes := block.modes.modify mode f }) list k
    = inMode blocks list k
  := by
  apply inMode_modify_of_eq
  intro block m
  by_cases hm : mode = m
  · subst hm
    cases hmode : block.modes[mode]? <;> simp [hmode, hf]
  · simp [hm]

/-- Only the list of one mode is changed where something is appended to it. -/
theorem inMode_modify_of_append {blocks : Array Block} {id : BlockId} {mode n : Nat}
    {f : Mode → Mode} (hf : ∀ m, list (f m) = list m ++ [n]) (k : BlockId × Nat) :
  inMode (blocks.modify id fun block => { block with modes := block.modes.modify mode f }) list k
    = if some (id, mode) = some k then (inMode blocks list k).map (· ++ [n])
      else inMode blocks list k
  := by
  obtain ⟨q, m⟩ := k
  rw [inMode, inMode, Array.getElem?_modify]
  by_cases hq : id = q
  · subst hq
    cases blocks[id]? with
    | none => simp
    | some block =>
      by_cases hm : mode = m
      · subst hm
        cases hmode : block.modes[mode]? <;> simp [hmode, hf]
      · simp [hm]
  · rw [if_neg hq, if_neg]
    intro heq
    cases heq
    apply hq rfl

/-- A new mode of a block has empty lists. -/
theorem inMode_addMode {blocks : Array Block} {id : BlockId} {mode : Mode}
    (hmode : list mode = []) (k : BlockId × Nat) :
  inMode (blocks.modify id fun block => { block with modes := block.modes ++ [mode] }) list k
      = inMode blocks list k
    ∨ inMode blocks list k = none
      ∧ inMode (blocks.modify id fun block => { block with modes := block.modes ++ [mode] }) list k
        = some []
  := by
  obtain ⟨q, m⟩ := k
  simp only [inMode, Array.getElem?_modify]
  by_cases hq : id = q
  · subst hq
    cases blocks[id]? with
    | none => simp
    | some block =>
      rcases Nat.lt_trichotomy m block.modes.length with hlt | rfl | hgt
      · left
        simp [List.getElem?_append_left hlt]
      · right
        simp [hmode]
      · left
        have hlength : (block.modes ++ [mode]).length ≤ m := by
          rw [List.length_append]
          exact hgt
        rw [if_pos rfl, Option.map_some, Option.bind_some, Option.bind_some,
          List.getElem?_eq_none hlength, List.getElem?_eq_none (Nat.le_of_lt hgt)]
  · left
    rw [if_neg hq]

/-- A block without modes adds no lists. -/
theorem inMode_push {blocks : Array Block} {block : Block} (hmodes : block.modes = [])
    (k : BlockId × Nat) :
  inMode (blocks.push block) list k = inMode blocks list k
  := by
  rw [inMode, inMode, Array.getElem?_push]
  split
  · rename_i heq
    rw [heq, Array.getElem?_eq_none (Nat.le_refl _)]
    simp [hmodes]
  · rfl

/-- A mode of a block has a list. -/
theorem exists_inMode {blocks : Array Block} {id : BlockId} {mode : Nat} {block : Block}
    (hblock : blocks[id]? = some block) (hmode : mode < block.modes.length) :
  ∃ l, inMode blocks list (id, mode) = some l
  := ⟨list block.modes[mode], by simp [inMode, hblock, hmode]⟩

/-! ### Nested blocks -/

/-- Blocks stay nested where their parents and depths do. -/
theorem Nested.modify {blocks : Array Block} {id : BlockId} {f : Block → Block}
    (h : Nested blocks) (hparent : ∀ block, (f block).parent = block.parent)
    (hdepth : ∀ block, (f block).depth = block.depth) :
  Nested (blocks.modify id f)
  := by
  have hsame : (blocks.modify id f).map (fun block => (block.parent, block.depth))
      = blocks.map fun block => (block.parent, block.depth) := by
    apply map_modify_of_seen
    intro block _
    rw [hparent, hdepth]
  constructor
  case top =>
    obtain ⟨block, hblock, htop⟩ := h.top
    obtain ⟨block', hblock', heq⟩ := exists_getElem?_of_map_eq hsame.symm hblock
    rw [Prod.mk.injEq] at heq
    exact ⟨block', hblock', heq.1.symm.trans htop⟩
  case below =>
    intro id' block' hblock' hne
    obtain ⟨block, hblock, heq⟩ := exists_getElem?_of_map_eq hsame hblock'
    obtain ⟨above, mode, upper, hin, hlt, hupper, hdeep⟩ := h.below id' block hblock hne
    obtain ⟨upper', hupper', heq'⟩ := exists_getElem?_of_map_eq hsame.symm hupper
    rw [Prod.mk.injEq] at heq heq'
    refine ⟨above, mode, upper', heq.1.trans hin, hlt, hupper', ?_⟩
    rw [heq.2, hdeep, heq'.2]

/-- Blocks stay nested when one is added below another. -/
theorem Nested.push {blocks : Array Block} {above : BlockId} {mode : Nat} {upper block : Block}
    (h : Nested blocks) (hupper : blocks[above]? = some upper)
    (hparent : block.parent = some (above, mode)) (hdepth : block.depth = upper.depth + 1) :
  Nested (blocks.push block)
  := by
  have hold : ∀ (id : Nat) block', blocks[id]? = some block' →
      (blocks.push block)[id]? = some block' := by
    intro id block' hblock'
    rw [Array.getElem?_push, if_neg, hblock']
    apply Nat.ne_of_lt (Array.getElem?_eq_some_iff.mp hblock').1
  constructor
  case top =>
    obtain ⟨top, htop, hnone⟩ := h.top
    exact ⟨top, hold _ _ htop, hnone⟩
  case below =>
    intro id block' hblock' hne
    rw [Array.getElem?_push] at hblock'
    split at hblock'
    · rename_i heq
      cases hblock'
      rw [heq]
      exact ⟨above, mode, upper, hparent, (Array.getElem?_eq_some_iff.mp hupper).1,
        hold _ _ hupper, hdepth⟩
    · obtain ⟨above', mode', upper', hin, hlt, hupper', hdeep⟩ := h.below id block' hblock' hne
      exact ⟨above', mode', upper', hin, hlt, hold _ _ hupper', hdeep⟩

/-! ### Numbered pins -/

/-- Numbers depend on the pins of blocks, and on the blocks and numbers of pins only. -/
theorem Numbered.congr {blocks blocks' : Array Block} {pins pins' : Array Pin}
    (h : Numbered blocks pins) (hblocks : blocks'.map (·.pins) = blocks.map (·.pins))
    (hpins : pins'.map (fun p => (p.block, p.boundary)) = pins.map fun p => (p.block, p.boundary)) :
  Numbered blocks' pins'
  := by
  constructor
  case boundary =>
    intro block' hblock' k id hid
    obtain ⟨block, hblock, hlist⟩ := exists_getElem?_of_map_eq hblocks hblock'
    rw [hlist] at hid
    obtain ⟨p, hp, hboundary⟩ := h.boundary block hblock k id hid
    obtain ⟨p', hp', heq⟩ := exists_getElem?_of_map_eq hpins.symm hp
    rw [Prod.mk.injEq] at heq
    exact ⟨p', hp', heq.2.symm.trans hboundary⟩
  case inner =>
    intro id p' hp' hinner
    obtain ⟨p, hp, heq⟩ := exists_getElem?_of_map_eq hpins hp'
    rw [Prod.mk.injEq] at heq
    rw [heq.1] at hinner
    rw [heq.2]
    apply h.inner id p hp hinner

/-- Numbers stay where blocks are changed in other ways than in their pins. -/
theorem Numbered.modify {blocks : Array Block} {pins : Array Pin} {id : BlockId}
    {f : Block → Block} (h : Numbered blocks pins) (hf : ∀ block, (f block).pins = block.pins) :
  Numbered (blocks.modify id f) pins
  := by
  apply h.congr (map_modify_of_seen _) rfl
  intro block _
  apply hf

/-- Numbers stay where a block without pins is added. -/
theorem Numbered.push_block {blocks : Array Block} {pins : Array Pin} {block : Block}
    (h : Numbered blocks pins) (hpins : block.pins = []) :
  Numbered (blocks.push block) pins
  := by
  constructor
  case boundary =>
    intro block' hblock' k id hid
    rw [Array.getElem?_push] at hblock'
    split at hblock'
    · cases hblock'
      rw [hpins] at hid
      cases hid
    · apply h.boundary block' hblock' k id hid
  case inner => apply h.inner

/-- A pin of the root that is added takes the next number, and other pins take none. -/
theorem Numbered.push_pin {blocks : Array Block} {pins : Array Pin} {p : Pin}
    (h : Numbered blocks pins)
    (hboundary : ∀ block, blocks[root]? = some block → p.block = root →
      p.boundary = some block.pins.length)
    (hinner : p.block ≠ root → p.boundary = none) :
  Numbered (blocks.modify p.block fun block => { block with pins := block.pins ++ [pins.size] })
    (pins.push p)
  := by
  have hold : ∀ (id : Nat) q, pins[id]? = some q → (pins.push p)[id]? = some q := by
    intro id q hq
    rw [Array.getElem?_push, if_neg, hq]
    apply Nat.ne_of_lt (Array.getElem?_eq_some_iff.mp hq).1
  constructor
  case boundary =>
    intro block' hblock' k id hid
    rw [Array.getElem?_modify] at hblock'
    split at hblock'
    · rename_i hroot
      obtain ⟨block, hblock, rfl⟩ := Option.map_eq_some_iff.mp hblock'
      rw [List.getElem?_append] at hid
      split at hid
      · obtain ⟨q, hq, hnumber⟩ := h.boundary block hblock k id hid
        exact ⟨q, hold id q hq, hnumber⟩
      · -- the pin is the one that is added
        obtain ⟨hk, rfl⟩ := List.getElem?_eq_some_iff.mp hid
        rw [List.getElem_singleton]
        rw [List.length_singleton] at hk
        obtain rfl : k = block.pins.length := by omega
        exact ⟨p, Array.getElem?_push_size, hboundary block hblock hroot⟩
    · obtain ⟨q, hq, hnumber⟩ := h.boundary block' hblock' k id hid
      exact ⟨q, hold id q hq, hnumber⟩
  case inner =>
    intro id q hq hne
    rw [Array.getElem?_push] at hq
    split at hq
    · cases hq
      apply hinner hne
    · apply h.inner id q hq hne

end RoutingFabric.BlockGraph
