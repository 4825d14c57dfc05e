import RoutingFabric.Proofs.BlockGraph.Names
import RoutingFabric.Proofs.BlockGraph.Tags
import RoutingFabric.Proofs.Text

/-!
# Pins that share a name

The name of a pin is made of the names of the blocks from the top to its block, its port and its
bit. The modes that these blocks are in are left out of it. So where names have no dots, two pins
share a name exactly when they are the same bit of the same port of blocks that are called the same
all the way up. Such blocks are the same, unless a block has blocks of one name in two of its modes.
-/

namespace RoutingFabric.BlockGraph

/-- The names of the blocks from the top to the block. -/
inductive Path (b : BlockGraph) : BlockId → List String → Prop
  | top {id : BlockId} {x : Block} (found : b.blocks[id]? = some x) (alone : x.parent = none) :
    Path b id [x.name]
  | inner {id above : BlockId} {x : Block} {mode : Nat} {names : List String}
    (found : b.blocks[id]? = some x) (parent : x.parent = some (above, mode))
    (upper : Path b above names) : Path b id (names ++ [x.name])

/-- The blocks are called the same, and so are the blocks above them. -/
inductive Twins (b : BlockGraph) : BlockId → BlockId → Prop
  | same (id : BlockId) : Twins b id id
  | inner {id id' above above' : BlockId} {x x' : Block} {mode mode' : Nat}
    (found : b.blocks[id]? = some x) (found' : b.blocks[id']? = some x')
    (parent : x.parent = some (above, mode)) (parent' : x'.parent = some (above', mode'))
    (name : x.name = x'.name) (upper : Twins b above above') : Twins b id id'

/-- A block has blocks of one name in two of its modes. -/
def Forked (b : BlockGraph) : Prop :=
  ∃ (id id' above : BlockId) (x x' : Block) (mode mode' : Nat), b.blocks[id]? = some x
    ∧ b.blocks[id']? = some x' ∧ x.parent = some (above, mode) ∧ x'.parent = some (above, mode')
    ∧ mode ≠ mode' ∧ x.name = x'.name

variable {b : BlockGraph} {id id' : BlockId} {names names' : List String} {x x' : Block}
variable {pin pin' : PinId} {p p' : Pin} {text text' : String}

/-! ### Tags -/

/-- Blocks with the same tag are the same. -/
theorem Labelled.block_unique (hb : b.Labelled) (hx : b.blocks[id]? = some x)
    (hx' : b.blocks[id']? = some x') (h : x.tag = x'.tag) :
  id = id'
  := by
  obtain ⟨hid, -⟩ := Array.getElem?_eq_some_iff.mp hx
  have hlt : id < b.blockTags.length := by simpa [blockTags] using hid
  apply (List.getElem?_inj hlt hb.blocks).mp
  simp [blockTags, hx, hx', h]

/-- Pins with the same tag are the same. -/
theorem Labelled.pin_unique (hb : b.Labelled) (hp : b.pins[pin]? = some p)
    (hp' : b.pins[pin']? = some p') (h : p.tag = p'.tag) :
  pin = pin'
  := by
  obtain ⟨hpin, -⟩ := Array.getElem?_eq_some_iff.mp hp
  have hlt : pin < b.pinTags.length := by simpa [pinTags] using hpin
  apply (List.getElem?_inj hlt hb.pins).mp
  simp [pinTags, hp, hp', h]

/-- The port of a pin has no dots. -/
theorem Labelled.plain_port (hb : b.Labelled) (hp : b.pins[pin]? = some p) :
  '.' ∉ p.port.toList
  := by
  apply hb.plainPorts p.tag
  rw [pinTags, Array.mem_toList_iff]
  apply Array.mem_map_of_mem
  apply Array.mem_of_getElem? hp

/-! ### Paths -/

/-- What is found on the way up is a path. -/
theorem exists_path_of_pathOf {more : Nat} {below all : List String}
    (h : b.pathOf more id below = .ok all) :
  ∃ names, b.Path id names ∧ all = names ++ below
  := by
  induction more generalizing id below with
  | zero => cases h
  | succ more ih =>
    obtain ⟨x, hx, h⟩ := bind_eq_ok_iff.mp h
    rw [block, entry_eq_ok_iff] at hx
    cases hparent : x.parent with
    | none =>
      rw [hparent] at h
      cases pure_eq_ok_iff.mp h
      exact ⟨_, Path.top hx hparent, rfl⟩
    | some above =>
      rw [hparent] at h
      obtain ⟨names, hpath, rfl⟩ := ih h
      exact ⟨_, Path.inner hx hparent hpath, by rw [List.append_assoc, List.singleton_append]⟩

/-- The name of a block is made of the names of a path. -/
theorem exists_path_of_blockPath (h : b.blockPath id = .ok text) :
  ∃ names, b.Path id names ∧ text = ".".intercalate names
  := by
  obtain ⟨all, hall, h⟩ := bind_eq_ok_iff.mp h
  cases pure_eq_ok_iff.mp h
  obtain ⟨names, hpath, rfl⟩ := exists_path_of_pathOf hall
  exact ⟨names, hpath, by rw [List.append_nil]⟩

/-- A path has a name. -/
theorem Path.ne_nil (h : b.Path id names) : names ≠ [] := by
  cases h <;> simp

/-- The names of a path have no dots if those of blocks have none. -/
theorem Path.plain (h : b.Path id names) (hb : b.Labelled) : ∀ name ∈ names, '.' ∉ name.toList := by
  have hplain : ∀ {id : BlockId} {x}, b.blocks[id]? = some x → '.' ∉ x.name.toList := by
    intro id x hx
    apply hb.plainBlocks x.tag
    rw [blockTags, Array.mem_toList_iff]
    apply Array.mem_map_of_mem
    apply Array.mem_of_getElem? hx
  induction h with
  | top found alone =>
    intro name hname
    cases List.mem_singleton.mp hname
    apply hplain found
  | inner found parent upper ih =>
    intro name hname
    rcases List.mem_append.mp hname with hname | hname
    · apply ih name hname
    · cases List.mem_singleton.mp hname
      apply hplain found

/-! ### Twins -/

/-- Twins have the same path. -/
theorem Twins.path (h : b.Twins id id') (hpath : b.Path id names) : b.Path id' names := by
  induction h generalizing names with
  | same => apply hpath
  | inner found found' parent parent' name upper ih =>
    cases hpath with
    | top found₁ alone =>
      cases found.symm.trans found₁
      rw [parent] at alone
      cases alone
    | inner found₁ parent₁ upper₁ =>
      cases found.symm.trans found₁
      cases parent.symm.trans parent₁
      rw [name]
      apply Path.inner found' parent' (ih upper₁)

/-- A block has one path. -/
theorem Path.unique (h : b.Path id names) (h' : b.Path id names') : names = names' := by
  induction h generalizing names' with
  | top found alone =>
    cases h' with
    | top found' alone' =>
      cases found.symm.trans found'
      rfl
    | inner found' parent' =>
      cases found.symm.trans found'
      cases alone.symm.trans parent'
  | inner found parent upper ih =>
    cases h' with
    | top found' alone' =>
      cases found.symm.trans found'
      cases alone'.symm.trans parent
    | inner found' parent' upper' =>
      cases found.symm.trans found'
      cases parent.symm.trans parent'
      rw [ih upper']

/-- Blocks with the same path are twins. -/
theorem Path.twins (hb : Nested b.blocks) (h : b.Path id names) (h' : b.Path id' names) :
  b.Twins id id'
  := by
  have hroot : ∀ {id : BlockId} {x}, b.blocks[id]? = some x → x.parent = none → id = root := by
    intro id x hx hnone
    by_contra hne
    obtain ⟨above, mode, upper, hparent, -⟩ := hb.below id x hx hne
    cases hnone.symm.trans hparent
  induction h generalizing id' with
  | top found alone =>
    generalize hnames : [_] = names at h'
    cases h' with
    | top found' alone' =>
      rw [hroot found alone, hroot found' alone']
      apply Twins.same
    | inner found' parent' upper' =>
      cases upper'.ne_nil (by simpa using congrArg List.length hnames)
  | inner found parent upper ih =>
    generalize hnames : _ ++ [_] = names at h'
    cases h' with
    | top found' alone' =>
      cases upper.ne_nil (by simpa using congrArg List.length hnames)
    | inner found' parent' upper' =>
      obtain ⟨rfl, hname⟩ := List.append_inj' hnames rfl
      apply Twins.inner found found' parent parent' (List.singleton_inj.mp hname) (ih upper')

/-- Twins are the same block, unless a block has blocks of one name in two of its modes. -/
theorem Twins.eq_or_forked (h : b.Twins id id') (hb : b.Labelled) : id = id' ∨ b.Forked := by
  induction h with
  | same => exact .inl rfl
  | @inner id id' above above' x x' mode mode' found found' parent parent' name upper ih =>
    rcases ih with rfl | hforked
    · by_cases hmode : mode = mode'
      · left
        apply hb.block_unique found found'
        rw [Block.tag, Block.tag, parent, parent', name, hmode]
      · right
        exact ⟨id, id', above, x, x', mode, mode', found, found', parent, parent', hmode, name⟩
    · exact .inr hforked

/-! ### Names of pins -/

/-- Pins have the same name exactly when they are the same bit of the same port of twins. -/
theorem Labelled.pinName_inj (hb : b.Labelled) (hnested : Nested b.blocks)
    (hp : b.pins[pin]? = some p) (hp' : b.pins[pin']? = some p') (h : b.pinName pin = .ok text)
    (h' : b.pinName pin' = .ok text') :
  text = text' ↔ b.Twins p.block p'.block ∧ p.port = p'.port ∧ p.bit = p'.bit
  := by
  rw [pinName_eq hp] at h
  rw [pinName_eq hp'] at h'
  obtain ⟨path, hpath, heq⟩ := bind_eq_ok_iff.mp h
  obtain ⟨path', hpath', heq'⟩ := bind_eq_ok_iff.mp h'
  cases pure_eq_ok_iff.mp heq
  cases pure_eq_ok_iff.mp heq'
  obtain ⟨names, hnames, rfl⟩ := exists_path_of_blockPath hpath
  obtain ⟨names', hnames', rfl⟩ := exists_path_of_blockPath hpath'
  rw [Text.pinText_inj (hb.plain_port hp) (hb.plain_port hp'),
    Text.intercalate_inj (hnames.plain hb) (hnames'.plain hb) hnames.ne_nil hnames'.ne_nil]
  apply and_congr_left'
  constructor
  · rintro rfl
    apply hnames.twins hnested hnames'
  · intro htwins
    apply (htwins.path hnames).unique hnames'

/-- Pins with the same name are the same, unless a block has blocks of one name in two of its modes.
-/
theorem Labelled.pin_unique_of_pinName (hb : b.Labelled) (hnested : Nested b.blocks)
    (hforked : ¬ b.Forked) (h : b.pinName pin = .ok text) (h' : b.pinName pin' = .ok text) :
  pin = pin'
  := by
  obtain ⟨p, hp, -⟩ := bind_eq_ok_iff.mp h
  obtain ⟨p', hp', -⟩ := bind_eq_ok_iff.mp h'
  rw [BlockGraph.pin, entry_eq_ok_iff] at hp hp'
  obtain ⟨htwins, hport, hbit⟩ := (hb.pinName_inj hnested hp hp' h h').mp rfl
  have hblock := (htwins.eq_or_forked hb).resolve_right hforked
  apply hb.pin_unique hp hp'
  rw [Pin.tag, Pin.tag, hblock, hport, hbit]

end RoutingFabric.BlockGraph
