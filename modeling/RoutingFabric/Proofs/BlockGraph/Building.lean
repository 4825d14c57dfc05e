import RoutingFabric.BlockGraph.Builder
import RoutingFabric.Proofs.BlockGraph.Links

/-!
# Block graphs that are built

A block graph that is built from a single block, by additions one after another, is well built. The
single block is to begin with, and each kind of addition keeps it so. Such a graph passes the check
of its references.
-/

namespace RoutingFabric.BlockGraph

/-- An addition to a block graph. -/
inductive Addition where
  /-- a mode of a block -/
  | mode (id : BlockId) (name : String)
  /-- a block in a mode of another -/
  | child (parent : BlockId) (mode : Nat) (type name : String)
  /-- the pins of a port of a block -/
  | port (block : BlockId) (kind : PortKind) (port : String) (width : Nat)
  /-- a wire or a full multiplexer between pins -/
  | interconnect (owner : BlockId) (mode : Nat) (name : String) (kind : InterconnectKind)
      (inputs outputs : List PinId)
  /-- a multiplexer with the connections listed -/
  | restrictedMux (owner : BlockId) (mode : Nat) (name : String) (pairs : List (PinId × PinId))

/-- The graph with an addition. -/
def add (b : BlockGraph) : Addition → Outcome BlockGraph
  | .mode id name => do return (← b.addMode id name).2
  | .child parent mode type name => do return (← b.addChild parent mode type name).2
  | .port block kind port width => do return (← b.addPort block kind port width).2
  | .interconnect owner mode name kind inputs outputs => do
    return (← b.addInterconnect owner mode name kind inputs outputs).2
  | .restrictedMux owner mode name pairs => do
    return (← b.addRestrictedMux owner mode name pairs).2

/-- The graph with additions, one after another. -/
def addAll (b : BlockGraph) : List Addition → Outcome BlockGraph
  | [] => .ok b
  | x :: rest => do addAll (← b.add x) rest

variable {b b' : BlockGraph}

/-! ### The first block -/

/-- A graph of a single block is well built. -/
theorem wellBuilt_ofName (name : String) : (ofName name).WellBuilt := by
  have hroot : ∀ (id : BlockId) block, (ofName name).blocks[id]? = some block →
      id = root ∧ block = { name, type := name } := by
    intro id block hblock
    obtain ⟨hid, rfl⟩ := Array.getElem?_eq_some_iff.mp hblock
    obtain rfl : id = 0 := Nat.lt_one_iff.mp hid
    exact ⟨rfl, rfl⟩
  have hmodes : ∀ (list : Mode → List Nat) k l,
      inMode (ofName name).blocks list k = some l → l = [] := by
    intro list k l hl
    obtain ⟨block, hblock, hl⟩ := Option.bind_eq_some_iff.mp hl
    obtain ⟨-, rfl⟩ := hroot _ _ hblock
    cases hl
  constructor
  case edges => constructor <;> exact Listed.of_none (fun _ => rfl) (by rintro k l ⟨⟩)
  case blocks =>
    constructor
    case pins =>
      apply Listed.of_none fun _ => rfl
      intro k l hl
      obtain ⟨block, hblock, rfl⟩ := Option.map_eq_some_iff.mp hl
      obtain ⟨-, rfl⟩ := hroot _ _ hblock
      rfl
    case children =>
      apply Listed.of_none _ (hmodes _)
      intro id
      rw [Option.bind_eq_none_iff]
      intro block hblock
      obtain ⟨-, rfl⟩ := hroot _ _ hblock
      rfl
    case interconnects => apply Listed.of_none (fun _ => rfl) (hmodes _)
  case nested =>
    constructor
    case top => exact ⟨_, rfl, rfl⟩
    case below =>
      intro id block hblock hne
      cases hne (hroot id block hblock).1
  case numbered =>
    constructor
    case boundary =>
      intro block hblock k id hid
      obtain ⟨-, rfl⟩ := hroot _ _ hblock
      cases hid
    case inner =>
      rintro id p ⟨⟩

/-! ### Edges -/

/-- An edge is added between pins of the graph to an interconnect of the graph. -/
theorem connect_eq_ok_iff {ic : InterconnectId} {source target : PinId} :
  b.connect ic source target = .ok b'
    ↔ source < b.pins.size ∧ target < b.pins.size ∧ ic < b.interconnects.size
      ∧ b' = { b with
          edges := b.edges.push ⟨source, target, ic⟩
          pins := (b.pins.modify source fun p =>
              { p with outputs := p.outputs ++ [b.edges.size] }).modify target fun p =>
                { p with inputs := p.inputs ++ [b.edges.size] }
          interconnects := b.interconnects.modify ic fun i =>
            { i with edges := i.edges ++ [b.edges.size] } }
  := by
  simp only [connect, bind_eq_ok_iff, alter_eq_ok_iff, pure_eq_ok_iff]
  constructor
  · rintro ⟨_, ⟨hsource, rfl⟩, _, ⟨htarget, rfl⟩, _, ⟨hic, rfl⟩, rfl⟩
    rw [Array.size_modify] at htarget
    exact ⟨hsource, htarget, hic, rfl⟩
  · rintro ⟨hsource, htarget, hic, rfl⟩
    exact ⟨_, ⟨hsource, rfl⟩, _, ⟨by rwa [Array.size_modify], rfl⟩, _, ⟨hic, rfl⟩, rfl⟩

/-- Edges are listed after one is added. -/
theorem EdgesListed.connect {ic : InterconnectId} {source target : PinId} (h : b.EdgesListed)
    (hconnect : b.connect ic source target = .ok b') :
  b'.EdgesListed
  := by
  obtain ⟨hsource, htarget, hic, rfl⟩ := connect_eq_ok_iff.mp hconnect
  constructor
  case inputs =>
    apply (h.inputs.modify_of_eq _).push_modify rfl _ fun _ => rfl
    · intro p
      rfl
    · rwa [Array.size_modify]
  case outputs =>
    apply (h.outputs.push_modify rfl hsource fun _ => rfl).modify_of_eq
    intro p
    rfl
  case wires => apply h.wires.push_modify rfl hic fun _ => rfl

/-- A graph stays well built when an edge is added. -/
theorem WellBuilt.connect {ic : InterconnectId} {source target : PinId} (h : b.WellBuilt)
    (hconnect : b.connect ic source target = .ok b') :
  b'.WellBuilt
  := by
  have hedges := h.edges.connect hconnect
  obtain ⟨-, -, -, rfl⟩ := connect_eq_ok_iff.mp hconnect
  constructor
  case edges => exact hedges
  case blocks =>
    constructor
    case pins =>
      dsimp only
      apply (h.blocks.pins.modify_entry _).modify_entry <;> intro _ <;> rfl
    case children => exact h.blocks.children
    case interconnects =>
      dsimp only
      apply h.blocks.interconnects.modify_entry
      intro _
      rfl
  case nested => exact h.nested
  case numbered =>
    apply h.numbered.congr rfl
    dsimp only
    rw [map_modify_of_seen, map_modify_of_seen] <;> intro _ _ <;> rfl

/-- A graph stays well built when edges are added. -/
theorem WellBuilt.connectAll {ic : InterconnectId} {pairs : List (PinId × PinId)}
    (h : b.WellBuilt) (hconnect : b.connectAll ic pairs = .ok b') :
  b'.WellBuilt
  := by
  induction pairs generalizing b with
  | nil =>
    cases pure_eq_ok_iff.mp hconnect
    apply h
  | cons pair pairs ih =>
    rw [BlockGraph.connectAll, List.foldlM_cons] at hconnect
    obtain ⟨b₁, hone, hrest⟩ := bind_eq_ok_iff.mp hconnect
    apply ih (h.connect hone) hrest

/-! ### Modes and blocks -/

/-- A mode that is there can be changed, and nothing else is. -/
theorem exists_of_modifyMode {id : BlockId} {mode : Nat} {f : Mode → Mode}
    (h : b.modifyMode id mode f = .ok b') :
  ∃ block, b.blocks[id]? = some block ∧ mode < block.modes.length
    ∧ b' = { b with blocks := b.blocks.modify id fun block =>
        { block with modes := block.modes.modify mode f } }
  := by
  obtain ⟨block, hblock, h⟩ := bind_eq_ok_iff.mp h
  rw [BlockGraph.block, entry_eq_ok_iff] at hblock
  split at h
  · rename_i hmode
    simp only [modifyBlock, bind_eq_ok_iff, alter_eq_ok_iff, pure_eq_ok_iff] at h
    obtain ⟨_, ⟨-, rfl⟩, rfl⟩ := h
    exact ⟨block, hblock, hmode, rfl⟩
  · cases fault_ne_ok h

/-- A graph stays well built when an interconnect without edges is added. -/
theorem WellBuilt.pushInterconnect {owner : BlockId} {mode : Nat} {name : String}
    {kind : InterconnectKind} {ic : InterconnectId} (h : b.WellBuilt)
    (hpush : b.pushInterconnect owner mode name kind = .ok (ic, b')) :
  b'.WellBuilt
  := by
  obtain ⟨b₁, hmodify, heq⟩ := bind_eq_ok_iff.mp hpush
  cases pure_eq_ok_iff.mp heq
  obtain ⟨block, hblock, hmode, rfl⟩ := exists_of_modifyMode hmodify
  constructor
  case edges => exact ⟨h.edges.inputs, h.edges.outputs, h.edges.wires.push_of_nil rfl⟩
  case blocks =>
    constructor
    case pins => exact h.blocks.pins.modify_of_eq fun _ => rfl
    case children =>
      dsimp only
      apply Listed.modify_entry
      · apply h.blocks.children.congr rfl
        exact inMode_modifyMode_of_eq fun _ => rfl
      · intro _
        rfl
    case interconnects =>
      apply h.blocks.interconnects.push
      · exact inMode_modify_of_append fun _ => rfl
      · rintro k ⟨⟩
        apply exists_inMode hblock hmode
  case nested =>
    dsimp only
    apply h.nested.modify <;> intro _ <;> rfl
  case numbered =>
    dsimp only
    apply h.numbered.modify
    intro _
    rfl

/-- A graph stays well built when a mode is added. -/
theorem WellBuilt.addMode {id : BlockId} {name : String} {mode : Nat} (h : b.WellBuilt)
    (hadd : b.addMode id name = .ok (mode, b')) :
  b'.WellBuilt
  := by
  simp only [BlockGraph.addMode, modifyBlock, bind_eq_ok_iff, alter_eq_ok_iff, pure_eq_ok_iff]
    at hadd
  obtain ⟨block, -, _, ⟨_, ⟨-, rfl⟩, rfl⟩, heq⟩ := hadd
  cases heq
  constructor
  case edges => exact ⟨h.edges.inputs, h.edges.outputs, h.edges.wires⟩
  case blocks =>
    constructor
    case pins => exact h.blocks.pins.modify_of_eq fun _ => rfl
    case children =>
      dsimp only
      apply Listed.modify_entry
      · apply h.blocks.children.grow (inMode_addMode rfl)
      · intro _
        rfl
    case interconnects => apply h.blocks.interconnects.grow (inMode_addMode rfl)
  case nested =>
    dsimp only
    apply h.nested.modify <;> intro _ <;> rfl
  case numbered =>
    dsimp only
    apply h.numbered.modify
    intro _
    rfl

/-- A graph stays well built when a block is added. -/
theorem WellBuilt.addChild {parent id : BlockId} {mode : Nat} {type name : String}
    (h : b.WellBuilt) (hadd : b.addChild parent mode type name = .ok (id, b')) :
  b'.WellBuilt
  := by
  obtain ⟨upper, hupper, hadd⟩ := bind_eq_ok_iff.mp hadd
  obtain ⟨depth, hdepth, hadd⟩ := bind_eq_ok_iff.mp hadd
  obtain ⟨b₁, hmodify, heq⟩ := bind_eq_ok_iff.mp hadd
  cases pure_eq_ok_iff.mp heq
  rw [BlockGraph.block, entry_eq_ok_iff] at hupper
  obtain ⟨block, hblock, hmode, rfl⟩ := exists_of_modifyMode hmodify
  constructor
  case edges => exact ⟨h.edges.inputs, h.edges.outputs, h.edges.wires⟩
  case blocks =>
    constructor
    case pins =>
      apply Listed.push_of_nil _ rfl
      exact h.blocks.pins.modify_of_eq fun _ => rfl
    case children =>
      dsimp only
      refine (h.blocks.children.modify_entry ?_).push ?_ ?_
      · intro _
        rfl
      · intro k
        rw [inMode_push rfl, inMode_modify_of_append fun _ => rfl, Array.size_modify]
      · rintro k ⟨⟩
        apply exists_inMode hblock hmode
    case interconnects =>
      apply h.blocks.interconnects.congr rfl
      intro k
      dsimp only
      rw [inMode_push rfl, inMode_modifyMode_of_eq]
      intro _
      rfl
  case nested =>
    dsimp only
    refine (h.nested.modify ?_ ?_).push (getElem?_modify_self hupper) rfl (eq_of_word hdepth)
    · intro _
      rfl
    · intro _
      rfl
  case numbered =>
    dsimp only
    apply (h.numbered.modify _).push_block rfl
    intro _
    rfl

/-! ### Pins -/

/-- A graph stays well built when a pin without edges is added to a block. -/
theorem WellBuilt.addPin (p : Pin) (h : b.WellBuilt) (hblock : p.block < b.blocks.size)
    (hinputs : p.inputs = []) (houtputs : p.outputs = [])
    (hboundary : ∀ block, b.blocks[root]? = some block → p.block = root →
      p.boundary = some block.pins.length)
    (hinner : p.block ≠ root → p.boundary = none) :
  WellBuilt { b with
    pins := b.pins.push p
    blocks := b.blocks.modify p.block fun block =>
      { block with pins := block.pins ++ [b.pins.size] } }
  := by
  constructor
  case edges =>
    exact ⟨h.edges.inputs.push_of_nil hinputs, h.edges.outputs.push_of_nil houtputs, h.edges.wires⟩
  case blocks =>
    constructor
    case pins => exact h.blocks.pins.push_modify rfl hblock fun _ => rfl
    case children =>
      dsimp only
      apply Listed.modify_entry
      · apply h.blocks.children.congr rfl
        exact inMode_modify_of_eq fun _ _ => rfl
      · intro _
        rfl
    case interconnects =>
      apply h.blocks.interconnects.congr rfl
      exact inMode_modify_of_eq fun _ _ => rfl
  case nested =>
    dsimp only
    apply h.nested.modify <;> intro _ <;> rfl
  case numbered => exact h.numbered.push_pin hboundary hinner

/-- A graph stays well built when bits of a port are added that take the next numbers. -/
theorem WellBuilt.addBits {block : BlockId} {kind : PortKind} {port : String}
    {more bit boundary : Nat} {ids : List PinId} (h : b.WellBuilt)
    (hnext : block = root → ∀ top, b.blocks[root]? = some top → top.pins.length = boundary)
    (hadd : b.addBits block kind port more bit boundary = .ok (ids, b')) :
  b'.WellBuilt
  := by
  induction more generalizing b bit boundary ids with
  | zero =>
    cases hadd
    apply h
  | succ more ih =>
    obtain ⟨b₁, hmodify, hadd⟩ := bind_eq_ok_iff.mp hadd
    obtain ⟨⟨rest, _⟩, hadd, heq⟩ := bind_eq_ok_iff.mp hadd
    cases pure_eq_ok_iff.mp heq
    simp only [modifyBlock, bind_eq_ok_iff, alter_eq_ok_iff, pure_eq_ok_iff] at hmodify
    obtain ⟨_, ⟨hblock, rfl⟩, rfl⟩ := hmodify
    apply ih _ _ hadd
    · refine WellBuilt.addPin { block, port, bit, kind, boundary := _ } h hblock rfl rfl ?_ ?_
      · intro top htop hroot
        rw [if_pos hroot, hnext hroot top htop]
      · intro hne
        rw [if_neg hne]
    · rintro rfl top' htop'
      rw [Array.getElem?_modify, if_pos rfl] at htop'
      obtain ⟨top, htop, rfl⟩ := Option.map_eq_some_iff.mp htop'
      rw [List.length_append, hnext rfl top htop, List.length_singleton]

/-- A graph stays well built when a port is added. -/
theorem WellBuilt.addPort {block : BlockId} {kind : PortKind} {port : String} {width : Nat}
    {ids : List PinId} (h : b.WellBuilt) (hadd : b.addPort block kind port width = .ok (ids, b')) :
  b'.WellBuilt
  := by
  obtain ⟨top, htop, hadd⟩ := bind_eq_ok_iff.mp hadd
  rw [BlockGraph.block, entry_eq_ok_iff] at htop
  split at hadd
  · cases fault_ne_ok hadd
  · apply h.addBits _ hadd
    intro _ top' htop'
    cases htop.symm.trans htop'
    rfl

/-! ### Any additions -/

/-- A graph stays well built when a wire or a full multiplexer is added. -/
theorem WellBuilt.addInterconnect {owner : BlockId} {mode : Nat} {name : String}
    {kind : InterconnectKind} {inputs outputs : List PinId} {ic : InterconnectId}
    (h : b.WellBuilt)
    (hadd : b.addInterconnect owner mode name kind inputs outputs = .ok (ic, b')) :
  b'.WellBuilt
  := by
  obtain ⟨⟨id, b₁⟩, hpush, hrest⟩ := bind_eq_ok_iff.mp hadd
  obtain ⟨pairs, -, hrest⟩ := bind_eq_ok_iff.mp hrest
  obtain ⟨b₂, hconnect, heq⟩ := bind_eq_ok_iff.mp hrest
  cases pure_eq_ok_iff.mp heq
  apply (h.pushInterconnect hpush).connectAll hconnect

/-- A graph stays well built when a multiplexer with its connections is added. -/
theorem WellBuilt.addRestrictedMux {owner : BlockId} {mode : Nat} {name : String}
    {pairs : List (PinId × PinId)} {ic : InterconnectId} (h : b.WellBuilt)
    (hadd : b.addRestrictedMux owner mode name pairs = .ok (ic, b')) :
  b'.WellBuilt
  := by
  obtain ⟨⟨id, b₁⟩, hpush, hrest⟩ := bind_eq_ok_iff.mp hadd
  obtain ⟨b₂, hconnect, heq⟩ := bind_eq_ok_iff.mp hrest
  cases pure_eq_ok_iff.mp heq
  apply (h.pushInterconnect hpush).connectAll hconnect

/-- A graph stays well built when anything is added. -/
theorem WellBuilt.add {addition : Addition} (h : b.WellBuilt)
    (hadd : b.add addition = .ok b') :
  b'.WellBuilt
  := by
  cases addition <;> simp only [BlockGraph.add, bind_eq_ok_iff, pure_eq_ok_iff] at hadd <;>
    obtain ⟨⟨_, _⟩, hone, rfl⟩ := hadd
  case mode => apply h.addMode hone
  case child => apply h.addChild hone
  case port => apply h.addPort hone
  case interconnect => apply h.addInterconnect hone
  case restrictedMux => apply h.addRestrictedMux hone

/-- A graph stays well built when it is added to any number of times. -/
theorem WellBuilt.addAll {additions : List Addition} (h : b.WellBuilt)
    (hadd : b.addAll additions = .ok b') :
  b'.WellBuilt
  := by
  induction additions generalizing b with
  | nil =>
    cases hadd
    apply h
  | cons addition rest ih =>
    obtain ⟨b₁, hone, hrest⟩ := bind_eq_ok_iff.mp hadd
    apply ih (h.add hone) hrest

/-- A graph that is built from one block by additions is linked in both directions, its blocks are
nested and its boundary is numbered; its references are found to be right. -/
theorem wellBuilt_of_addAll {name : String} {additions : List Addition}
    (h : (ofName name).addAll additions = .ok b) :
  b.WellBuilt ∧ b.checkReferences = .ok ()
  := by
  have hb := (wellBuilt_ofName name).addAll h
  exact ⟨hb, checkReferences_eq_ok_iff.mpr hb.closed⟩

/-- Ports of the root and of a block in it, added in turn, with an interconnect of each kind. -/
def cellAdditions : List Addition := [
  .mode 0 "logic", .port 0 .input "I" 2, .child 0 0 "lut" "lut[0]", .port 1 .input "in" 2,
  .port 0 .output "O" 1, .port 1 .output "out" 1, .interconnect 0 0 "direct" .wire [1] [3],
  .interconnect 0 0 "crossbar" .fullMux [0, 1, 5] [2],
  .restrictedMux 0 0 "bypass" [(5, 4), (1, 4)]]

/-- A cluster of one block. -/
def cellGraph : BlockGraph where
  name := "clb"
  blocks := #[
    { name := "clb", type := "clb", pins := [0, 1, 4]
      modes := [{ name := "logic", children := [1], interconnects := [0, 1, 2] }] },
    { name := "lut[0]", type := "lut", parent := some (0, 0), depth := 1, pins := [2, 3, 5] }]
  pins := #[
    { block := 0, port := "I", bit := 0, kind := .input, boundary := some 0, outputs := [1] },
    { block := 0, port := "I", bit := 1, kind := .input, boundary := some 1, outputs := [0, 2, 5] },
    { block := 1, port := "in", bit := 0, kind := .input, inputs := [1, 2, 3] },
    { block := 1, port := "in", bit := 1, kind := .input, inputs := [0] },
    { block := 0, port := "O", bit := 0, kind := .output, boundary := some 2, inputs := [4, 5] },
    { block := 1, port := "out", bit := 0, kind := .output, outputs := [3, 4] }]
  edges := #[⟨1, 3, 0⟩, ⟨0, 2, 1⟩, ⟨1, 2, 1⟩, ⟨5, 2, 1⟩, ⟨5, 4, 2⟩, ⟨1, 4, 2⟩]
  interconnects := #[
    { name := "direct", kind := .wire, owner := 0, mode := 0, edges := [0] },
    { name := "crossbar", kind := .fullMux, owner := 0, mode := 0, edges := [1, 2, 3] },
    { name := "bypass", kind := .restrictedMux, owner := 0, mode := 0, edges := [4, 5] }]

/-- The additions make the cluster. -/
theorem addAll_cell : (ofName "clb").addAll cellAdditions = .ok cellGraph := by decide +kernel

/-- The outputs of the root are numbered after its inputs, though other pins are in between. -/
theorem wellBuilt_cell :
  (ofName "clb").addAll cellAdditions = .ok cellGraph
    ∧ cellGraph.WellBuilt ∧ cellGraph.checkReferences = .ok ()
  := ⟨addAll_cell, wellBuilt_of_addAll addAll_cell⟩

end RoutingFabric.BlockGraph
