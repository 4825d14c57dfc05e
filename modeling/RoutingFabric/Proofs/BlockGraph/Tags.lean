import RoutingFabric.Proofs.BlockGraph.Building

/-!
# Tags of blocks and pins

The tag of a block is its place in the hierarchy with its name, and that of a pin is its block with
its port and bit. Only additions of blocks and ports add tags, each its own. So where the names that
are added are distinct, blocks and pins are told by their tags.
-/

namespace RoutingFabric.BlockGraph

/-- The place of a block and its name. -/
def Block.tag (x : Block) : Option (BlockId × Nat) × String := (x.parent, x.name)

/-- The block of a pin, its port and its bit. -/
def Pin.tag (p : Pin) : BlockId × String × Nat := (p.block, p.port, p.bit)

/-- The tags of the blocks. -/
def blockTags (b : BlockGraph) : List (Option (BlockId × Nat) × String) :=
  (b.blocks.map Block.tag).toList

/-- The tags of the pins. -/
def pinTags (b : BlockGraph) : List (BlockId × String × Nat) := (b.pins.map Pin.tag).toList

/-- The mode and the name of a block that is added. -/
def Addition.child? : Addition → Option ((BlockId × Nat) × String)
  | .child parent number _ name => some ((parent, number), name)
  | _ => none

/-- The block and the name of a port that is added. -/
def Addition.port? : Addition → Option (BlockId × String)
  | .port block _ name _ => some (block, name)
  | _ => none

/-- The name of a block or a port that is added. -/
def Addition.label? : Addition → Option String
  | .child _ _ _ name => some name
  | .port _ _ name _ => some name
  | _ => none

/-- The tags of the blocks that are added. -/
def Addition.blockTags : Addition → List (Option (BlockId × Nat) × String)
  | .child parent number _ name => [(some (parent, number), name)]
  | _ => []

/-- The tags of the pins that are added. -/
def Addition.pinTags : Addition → List (BlockId × String × Nat)
  | .port block _ name width => (List.range' 0 width).map (block, name, ·)
  | _ => []

/-- Blocks of one mode of a block have distinct names, and so have ports of a block. Neither they
nor the first block have a dot in their names. -/
structure Distinct (name : String) (additions : List Addition) : Prop where
  children : (additions.filterMap Addition.child?).Nodup
  ports : (additions.filterMap Addition.port?).Nodup
  top : '.' ∉ name.toList
  plain : ∀ x ∈ additions, ∀ label ∈ x.label?, '.' ∉ label.toList

/-- Blocks and pins are told by their tags, and their names have no dots. -/
structure Labelled (b : BlockGraph) : Prop where
  blocks : b.blockTags.Nodup
  pins : b.pinTags.Nodup
  plainBlocks : ∀ tag ∈ b.blockTags, '.' ∉ tag.2.toList
  plainPorts : ∀ tag ∈ b.pinTags, '.' ∉ tag.2.1.toList

variable {b b' : BlockGraph} {additions : List Addition} {name : String}

/-! ### What an addition adds -/

/-- The graphs have the same tags. -/
def SameTags (b b' : BlockGraph) : Prop := b'.blockTags = b.blockTags ∧ b'.pinTags = b.pinTags

/-- Tags that stay twice stay. -/
theorem SameTags.trans {b'' : BlockGraph} (h : b.SameTags b') (h' : b'.SameTags b'') :
  b.SameTags b''
  := ⟨h'.1.trans h.1, h'.2.trans h.2⟩

/-- The tags of blocks stay when one is changed to one with the same tag. -/
theorem blockTags_modify {id : BlockId} {f : Block → Block} (h : ∀ x, (f x).tag = x.tag) :
  blockTags { b with blocks := b.blocks.modify id f } = b.blockTags
  := by rw [blockTags, map_modify_of_seen fun x _ => h x, blockTags]

/-- Tags stay when an edge is added. -/
theorem sameTags_connect {ic : InterconnectId} {source target : PinId}
    (h : b.connect ic source target = .ok b') :
  b.SameTags b'
  := by
  obtain ⟨-, -, -, rfl⟩ := connect_eq_ok_iff.mp h
  constructor
  · rfl
  · rw [pinTags, map_modify_of_seen, map_modify_of_seen, pinTags] <;> intro _ _ <;> rfl

/-- Tags stay when edges are added. -/
theorem sameTags_connectAll {ic : InterconnectId} {pairs : List (PinId × PinId)}
    (h : b.connectAll ic pairs = .ok b') :
  b.SameTags b'
  := by
  induction pairs generalizing b with
  | nil =>
    cases pure_eq_ok_iff.mp h
    exact ⟨rfl, rfl⟩
  | cons pair pairs ih =>
    rw [connectAll, List.foldlM_cons] at h
    obtain ⟨b₁, hone, hrest⟩ := bind_eq_ok_iff.mp h
    apply (sameTags_connect hone).trans (ih hrest)

/-- Tags stay when an interconnect is added. -/
theorem sameTags_pushInterconnect {owner : BlockId} {mode : Nat} {kind : InterconnectKind}
    {ic : InterconnectId} (h : b.pushInterconnect owner mode name kind = .ok (ic, b')) :
  b.SameTags b'
  := by
  obtain ⟨b₁, hmodify, heq⟩ := bind_eq_ok_iff.mp h
  cases pure_eq_ok_iff.mp heq
  obtain ⟨block, -, -, rfl⟩ := exists_of_modifyMode hmodify
  constructor
  · apply blockTags_modify
    intro x
    rfl
  · rfl

/-- Bits of a port add their tags. -/
theorem tags_of_addBits {block : BlockId} {kind : PortKind} {port : String}
    {more bit boundary : Nat} {ids : List PinId}
    (h : b.addBits block kind port more bit boundary = .ok (ids, b')) :
  b'.blockTags = b.blockTags
    ∧ b'.pinTags = b.pinTags ++ (List.range' bit more).map (block, port, ·)
  := by
  induction more generalizing b bit boundary ids with
  | zero =>
    cases h
    simp
  | succ more ih =>
    obtain ⟨b₁, hmodify, h⟩ := bind_eq_ok_iff.mp h
    obtain ⟨⟨rest, _⟩, hrest, heq⟩ := bind_eq_ok_iff.mp h
    cases pure_eq_ok_iff.mp heq
    simp only [modifyBlock, bind_eq_ok_iff, alter_eq_ok_iff, pure_eq_ok_iff] at hmodify
    obtain ⟨_, ⟨-, rfl⟩, rfl⟩ := hmodify
    obtain ⟨hblocks, hpins⟩ := ih hrest
    constructor
    · rw [hblocks]
      apply blockTags_modify (b := b)
      intro x
      rfl
    · rw [hpins, List.range'_succ, List.map_cons, List.append_cons]
      simp [pinTags, Pin.tag]

/-- Tags stay when a mode is added. -/
theorem sameTags_addMode {id : BlockId} {mode : Nat} (h : b.addMode id name = .ok (mode, b')) :
  b.SameTags b'
  := by
  simp only [addMode, modifyBlock, bind_eq_ok_iff, alter_eq_ok_iff, pure_eq_ok_iff] at h
  obtain ⟨block, -, _, ⟨_, ⟨-, rfl⟩, rfl⟩, heq⟩ := h
  cases heq
  constructor
  · apply blockTags_modify
    intro x
    rfl
  · rfl

/-- A block adds its tag. -/
theorem tags_of_addChild {parent id : BlockId} {mode : Nat} {type : String}
    (h : b.addChild parent mode type name = .ok (id, b')) :
  b'.blockTags = b.blockTags ++ [(some (parent, mode), name)] ∧ b'.pinTags = b.pinTags
  := by
  simp only [addChild, bind_eq_ok_iff, pure_eq_ok_iff] at h
  obtain ⟨block, -, depth, -, b₁, hmodify, heq⟩ := h
  cases heq
  obtain ⟨_, -, -, rfl⟩ := exists_of_modifyMode hmodify
  constructor
  · simp only [blockTags, Array.map_push, Array.toList_push]
    rw [map_modify_of_seen]
    · rfl
    · intro _ _
      rfl
  · rfl

/-- The pins of a port add their tags. -/
theorem tags_of_addPort {block : BlockId} {kind : PortKind} {port : String} {width : Nat}
    {ids : List PinId} (h : b.addPort block kind port width = .ok (ids, b')) :
  b'.blockTags = b.blockTags
    ∧ b'.pinTags = b.pinTags ++ (List.range' 0 width).map (block, port, ·)
  := by
  obtain ⟨top, -, h⟩ := bind_eq_ok_iff.mp h
  split at h
  · cases fault_ne_ok h
  · apply tags_of_addBits h

/-- Tags stay when a wire or a full multiplexer is added. -/
theorem sameTags_addInterconnect {owner : BlockId} {mode : Nat} {kind : InterconnectKind}
    {inputs outputs : List PinId} {ic : InterconnectId}
    (h : b.addInterconnect owner mode name kind inputs outputs = .ok (ic, b')) :
  b.SameTags b'
  := by
  obtain ⟨⟨id, b₁⟩, hpush, h⟩ := bind_eq_ok_iff.mp h
  obtain ⟨pairs, -, h⟩ := bind_eq_ok_iff.mp h
  obtain ⟨b₂, hconnect, heq⟩ := bind_eq_ok_iff.mp h
  cases pure_eq_ok_iff.mp heq
  apply (sameTags_pushInterconnect hpush).trans (sameTags_connectAll hconnect)

/-- Tags stay when a multiplexer with its connections is added. -/
theorem sameTags_addRestrictedMux {owner : BlockId} {mode : Nat} {pairs : List (PinId × PinId)}
    {ic : InterconnectId} (h : b.addRestrictedMux owner mode name pairs = .ok (ic, b')) :
  b.SameTags b'
  := by
  obtain ⟨⟨id, b₁⟩, hpush, h⟩ := bind_eq_ok_iff.mp h
  obtain ⟨b₂, hconnect, heq⟩ := bind_eq_ok_iff.mp h
  cases pure_eq_ok_iff.mp heq
  apply (sameTags_pushInterconnect hpush).trans (sameTags_connectAll hconnect)

/-- An addition adds its tags. -/
theorem tags_of_add {x : Addition} (h : b.add x = .ok b') :
  b'.blockTags = b.blockTags ++ x.blockTags ∧ b'.pinTags = b.pinTags ++ x.pinTags
  := by
  have hblocks := b.blockTags.append_nil
  have hpins := b.pinTags.append_nil
  cases x <;> simp only [add, bind_eq_ok_iff, pure_eq_ok_iff] at h <;>
    obtain ⟨⟨_, _⟩, hone, rfl⟩ := h
  case mode =>
    obtain ⟨hblocks', hpins'⟩ := sameTags_addMode hone
    exact ⟨hblocks'.trans hblocks.symm, hpins'.trans hpins.symm⟩
  case child =>
    obtain ⟨hblocks', hpins'⟩ := tags_of_addChild hone
    exact ⟨hblocks', hpins'.trans hpins.symm⟩
  case port =>
    obtain ⟨hblocks', hpins'⟩ := tags_of_addPort hone
    exact ⟨hblocks'.trans hblocks.symm, hpins'⟩
  case interconnect =>
    obtain ⟨hblocks', hpins'⟩ := sameTags_addInterconnect hone
    exact ⟨hblocks'.trans hblocks.symm, hpins'.trans hpins.symm⟩
  case restrictedMux =>
    obtain ⟨hblocks', hpins'⟩ := sameTags_addRestrictedMux hone
    exact ⟨hblocks'.trans hblocks.symm, hpins'.trans hpins.symm⟩

/-- Additions add their tags, one after another. -/
theorem tags_of_addAll (h : b.addAll additions = .ok b') :
  b'.blockTags = b.blockTags ++ additions.flatMap Addition.blockTags
    ∧ b'.pinTags = b.pinTags ++ additions.flatMap Addition.pinTags
  := by
  induction additions generalizing b with
  | nil =>
    cases h
    simp
  | cons x rest ih =>
    obtain ⟨b₁, hone, hrest⟩ := bind_eq_ok_iff.mp h
    obtain ⟨hblocks, hpins⟩ := ih hrest
    obtain ⟨hblocks₁, hpins₁⟩ := tags_of_add hone
    rw [hblocks, hpins, hblocks₁, hpins₁, List.append_assoc, List.append_assoc]
    exact ⟨rfl, rfl⟩

/-! ### Distinct tags -/

/-- Lists that are made of distinct keys have no entry in common, so that there is none twice. -/
theorem nodup_flatMap_of_keys {α κ β : Type} {xs : List α} {key : α → Option κ} {f : α → List β}
    (hkeys : (xs.filterMap key).Nodup) (heach : ∀ x ∈ xs, (f x).Nodup)
    (hkey : ∀ x x' y, y ∈ f x → y ∈ f x' → ∃ k, key x = some k ∧ key x' = some k) :
  (xs.flatMap f).Nodup
  := by
  apply List.nodup_flatMap.mpr
  use heach
  apply (List.pairwise_filterMap.mp hkeys).imp
  intro x x' hne y hy hy'
  obtain ⟨k, hk, hk'⟩ := hkey x x' y hy hy'
  apply hne k hk k hk' rfl

/-- A graph that is built by additions of distinct names is told by its tags. -/
theorem labelled_of_addAll (h : (ofName name).addAll additions = .ok b)
    (hdistinct : Distinct name additions) :
  b.Labelled
  := by
  obtain ⟨hblocks, hpins⟩ := tags_of_addAll h
  have htop : (ofName name).blockTags = [(none, name)] := by simp [ofName, blockTags, Block.tag]
  have hnone : (ofName name).pinTags = [] := by simp [ofName, pinTags]
  rw [htop, List.singleton_append] at hblocks
  rw [hnone, List.nil_append] at hpins
  have hchild : ∀ x : Addition, ∀ tag ∈ x.blockTags, ∃ k, x.child? = some (k, tag.2)
      ∧ tag.1 = some k ∧ x.label? = some tag.2 := by
    intro x tag htag
    cases x with
    | child parent mode type name =>
      cases List.mem_singleton.mp htag
      exact ⟨(parent, mode), rfl, rfl, rfl⟩
    | _ => cases htag
  have hport : ∀ x : Addition, ∀ tag ∈ x.pinTags, x.port? = some (tag.1, tag.2.1)
      ∧ x.label? = some tag.2.1 := by
    intro x tag htag
    cases x with
    | port block kind port width =>
      obtain ⟨bit, -, rfl⟩ := List.mem_map.mp htag
      exact ⟨rfl, rfl⟩
    | _ => cases htag
  constructor
  case blocks =>
    rw [hblocks, List.nodup_cons]
    constructor
    · intro hmem
      obtain ⟨x, -, htag⟩ := List.mem_flatMap.mp hmem
      obtain ⟨k, -, hk, -⟩ := hchild x _ htag
      cases hk
    · apply nodup_flatMap_of_keys hdistinct.children
      · intro x _
        cases x with
        | child => apply List.nodup_singleton
        | _ => apply List.nodup_nil
      · intro x x' tag htag htag'
        obtain ⟨k, hk, hparent, -⟩ := hchild x tag htag
        obtain ⟨k', hk', hparent', -⟩ := hchild x' tag htag'
        cases hparent.symm.trans hparent'
        exact ⟨_, hk, hk'⟩
  case pins =>
    rw [hpins]
    apply nodup_flatMap_of_keys hdistinct.ports
    · intro x _
      cases x with
      | port block kind port width =>
        apply List.Nodup.map _ List.nodup_range'
        intro bit bit' heq
        cases heq
        rfl
      | _ => apply List.nodup_nil
    · intro x x' tag htag htag'
      exact ⟨_, (hport x tag htag).1, (hport x' tag htag').1⟩
  case plainBlocks =>
    rw [hblocks]
    intro tag hmem
    rcases List.mem_cons.mp hmem with rfl | hmem
    · apply hdistinct.top
    · obtain ⟨x, hx, htag⟩ := List.mem_flatMap.mp hmem
      obtain ⟨-, -, -, hlabel⟩ := hchild x tag htag
      apply hdistinct.plain x hx _ hlabel
  case plainPorts =>
    rw [hpins]
    intro tag hmem
    obtain ⟨x, hx, htag⟩ := List.mem_flatMap.mp hmem
    apply hdistinct.plain x hx _ (hport x tag htag).2

end RoutingFabric.BlockGraph
