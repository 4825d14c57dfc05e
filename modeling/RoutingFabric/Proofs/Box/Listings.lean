import RoutingFabric.Proofs.Box.Threads

/-!
# Wires and pins on the sides of boxes

Each tile of a wire lies between two switch boxes, and both list the wire for that tile on the sides
that face it: the signal leaves the one box and enters the other. The pins on a side of a switch box
are the output pins of the two blocks along its channel segment, on the sides where the connection
box of the segment has its input pins.
-/

namespace RoutingFabric

/-- The other way. -/
def Flow.reverse : Flow → Flow
  | .incoming => .outgoing
  | .outgoing => .incoming

/-- The side that faces along an axis. -/
def Axis.ahead : Axis → Side
  | .x => .right
  | .y => .top

/-- A wire takes opposite ways through opposite sides. -/
theorem Side.flow_across (s : Side) (d : Option Direction) :
  s.opposite.flow d = (s.flow d).reverse
  := by
  cases s <;> simp only [opposite, flow] <;> split <;> rfl

namespace Box

open RoutingGraph

/-- A wire on a side of a switch box, with the tile that it is listed for. -/
structure Listing where
  box : Tile
  side : Side
  segment : Option Tile
  wire : NodeId
  flow : Flow
  deriving DecidableEq

/-- The wires on a side of a switch box. -/
def listingsOn (b : SwitchBox) (side : Side) : List Listing :=
  (b.sides.get side).channel.map fun e =>
    ⟨b.place, side, (b.sides.get side).segment, e.node, e.flow⟩

/-- The wires on all sides of all switch boxes. -/
def listings (d : DeviceBoxes) : List Listing :=
  d.switch.toList.flatMap fun b => Side.all.flatMap (listingsOn b)

/-- The listings of a wire for a tile that it spans: on the box behind the tile, and on the box of
the tile, which it passes the other way. -/
def between (axis : Axis) (t : Tile) (id : NodeId) (d : Option Direction) : List Listing :=
  [⟨t.back axis, axis.ahead, some t, id, axis.ahead.flow d⟩,
    ⟨t, axis.ahead.opposite, some t, id, (axis.ahead.flow d).reverse⟩]

/-- A wire runs along an axis through a tile of the grid, behind the first of its row or column. -/
structure Runs (grid : Grid) (axis : Axis) (t : Tile) (n : Node) : Prop where
  kind : n.kind = Kind.ofAxis axis
  covers : n.covers t = true
  first : 1 ≤ t.along axis
  inside : grid.Holds t

/-- A pin of a kind sits on the side of a block that borders a channel segment. -/
def Sits (g : RoutingGraph) (kind : Kind) (axis : Axis) (t : Tile) (p : BlockPin) : Prop :=
  (∃ n, g.node p.node = .ok n ∧ n.kind = kind ∧ n.low = p.block ∧ n.side = some p.side)
    ∧ Borders p.block p.side axis t

variable {g : RoutingGraph} {grid : Grid} {t : Tile} {side : Side} {axis : Axis} {kind : Kind}
variable {b : SwitchBox} {l : Listing}

/-! ### Sides and segments -/

/-- The side of a switch box of the grid faces the channel segment along an axis at a tile. -/
structure Faces (grid : Grid) (axis : Axis) (t : Tile) (box : Tile) (side : Side) : Prop where
  inside : grid.Holds box
  boundary : SwitchBox.isBoundary grid box side = false
  along : (geometry side).axis = axis
  segment : segmentAt box side = t

/-- A segment behind the first tile of its row or column is faced by the box behind it and, from the
other side, by the box of its tile. -/
theorem faces_iff {box : Tile} :
  Faces grid axis t box side ↔ 1 ≤ t.along axis ∧ grid.Holds t
    ∧ (box = t.back axis ∧ side = axis.ahead ∨ box = t ∧ side = axis.ahead.opposite)
  := by
  constructor
  · rintro ⟨⟨hx, hy⟩, hboundary, rfl, rfl⟩
    -- through the top and the right the segment is the next tile, through the others that of the box
    cases side <;>
      simp_all [geometry, segmentAt, SwitchBox.isBoundary, Tile.along, Tile.back, Axis.ahead,
        Side.opposite, Grid.Holds] <;>
      omega
  · obtain ⟨x, y⟩ := t
    rintro ⟨hfirst, ⟨hx, hy⟩, ⟨rfl, rfl⟩ | ⟨rfl, rfl⟩⟩ <;> constructor <;> cases axis <;>
      simp only [Tile.along, Tile.back, Axis.ahead, Side.opposite] at hfirst hx hy ⊢ <;>
      simp [geometry, segmentAt, SwitchBox.isBoundary, Grid.Holds] <;>
      omega

/-! ### Wires on a side -/

/-- A side of the switch box at a tile lists a wire that is found at its segment. -/
inductive Lists (g : RoutingGraph) (grid : Grid) (box : Tile) (side : Side) : Listing → Prop where
  | wire (id : NodeId) (n : Node) (node : g.node id = .ok n)
      (boundary : SwitchBox.isBoundary grid box side = false)
      (found : n.isAt (Kind.ofAxis (geometry side).axis) (segmentAt box side) = true) :
    Lists g grid box side ⟨box, side, some (segmentAt box side), id, side.flow n.direction⟩

/-- A wire is listed on the side that lists it. -/
theorem Lists.place {box : Tile} (h : Lists g grid box side l) : l.box = box ∧ l.side = side := by
  cases h
  exact ⟨rfl, rfl⟩

/-- A wire that runs through a tile is listed for it. -/
inductive IsBetween (g : RoutingGraph) (grid : Grid) : Listing → Prop where
  | wire (axis : Axis) (t : Tile) (id : NodeId) (n : Node) (node : g.node id = .ok n)
      (runs : Runs grid axis t n) (l : Listing) (mem : l ∈ between axis t id n.direction) :
    IsBetween g grid l

/-- A side of a switch box lists the wires found at its segment. -/
theorem enumerates_listingsOn (hg : g.Listed) (h : SwitchBox.build g grid t = .ok b) (side : Side) :
  Enumerates (Lists g grid t side) (listingsOn b side)
  := by
  obtain ⟨rfl, hsides⟩ := sides_of_build h
  have hentry : ∀ id n, g.node id = .ok n →
      (SwitchBox.channelEntry g side (segmentAt b.place side) id).flow = side.flow n.direction := by
    intro id n hn
    rw [SwitchBox.channelEntry, directionOf, entry_eq_ok_iff.mp hn]
    rfl
  rw [listingsOn]
  rcases buildSide_cases (hsides side) with ⟨hboundary, hside⟩ | ⟨hboundary, hside⟩
  · rw [hside]
    apply Enumerates.nil
    rintro _ ⟨id, n, hn, hinner⟩
    rw [hinner] at hboundary
    cases hboundary
  · rw [hside, List.map_map]
    constructor
    · apply hg.nodup_nodesAt.map
      intro id id' heq
      injection heq
    · intro l
      rw [List.mem_map]
      constructor
      · rintro ⟨id, hid, rfl⟩
        obtain ⟨n, hn, hat⟩ := hg.mem_nodesAt_iff.mp hid
        rw [Function.comp_apply, hentry id n hn]
        apply Lists.wire id n hn hboundary hat
      · rintro ⟨id, n, hn, -, hat⟩
        refine ⟨id, hg.mem_nodesAt_iff.mpr ⟨n, hn, hat⟩, ?_⟩
        rw [Function.comp_apply, hentry id n hn]
        rfl

/-- The sides of switch boxes of the grid list wires for the tiles that these run through. -/
theorem exists_lists_iff :
  (∃ box, grid.Holds box ∧ ∃ side, Lists g grid box side l) ↔ IsBetween g grid l
  := by
  constructor
  · rintro ⟨box, hbox, side, ⟨id, n, hn, hboundary, hat⟩⟩
    obtain ⟨hkind, hcovers⟩ := Node.isAt_ofAxis_iff.mp hat
    obtain ⟨hfirst, hinside, hplace⟩ := faces_iff.mp ⟨hbox, hboundary, rfl, rfl⟩
    apply IsBetween.wire _ _ id n hn ⟨hkind, hcovers, hfirst, hinside⟩
    apply List.mem_pair.mpr
    -- only how the side faces the segment matters from here on
    generalize segmentAt box side = t at hplace
    generalize (geometry side).axis = axis at hplace
    rcases hplace with ⟨rfl, rfl⟩ | ⟨rfl, rfl⟩
    · left
      rfl
    · right
      rw [Side.flow_across]
  · rintro ⟨axis, t, id, n, hn, ⟨hkind, hcovers, hfirst, hinside⟩, l, hl⟩
    have hlists : ∀ box side, Faces grid axis t box side →
        Lists g grid box side ⟨box, side, some t, id, side.flow n.direction⟩ := by
      rintro box side ⟨hbox, hboundary, rfl, rfl⟩
      have hat := Node.isAt_ofAxis_iff.mpr ⟨hkind, hcovers⟩
      apply Lists.wire id n hn hboundary hat
    -- the tile is faced from both of its ends
    have hbehind : Faces grid axis t (t.back axis) axis.ahead :=
      faces_iff.mpr ⟨hfirst, hinside, .inl ⟨rfl, rfl⟩⟩
    have hfront : Faces grid axis t t axis.ahead.opposite :=
      faces_iff.mpr ⟨hfirst, hinside, .inr ⟨rfl, rfl⟩⟩
    rcases List.mem_pair.mp hl with rfl | rfl
    · exact ⟨_, hbehind.inside, _, hlists _ _ hbehind⟩
    · rw [← Side.flow_across]
      exact ⟨_, hfront.inside, _, hlists _ _ hfront⟩

/-! ### Wires of a device -/

/-- Switch boxes are built for the tiles where they are. -/
theorem boxes_of_forall₂ {ts : List Tile} {bs : List SwitchBox}
    (h : List.Forall₂ (fun t b => SwitchBox.build g grid t = .ok b) ts bs) :
  bs.map (·.place) = ts ∧ ∀ b ∈ bs, SwitchBox.build g grid b.place = .ok b
  := by
  induction h with
  | nil => simp
  | @cons t b ts bs hb _ ih =>
    obtain ⟨rfl, -⟩ := sides_of_build hb
    rw [List.map_cons, ih.1, List.forall_mem_cons]
    exact ⟨rfl, hb, ih.2⟩

/-- A device has one switch box for each tile of the grid. -/
theorem boxes_of_build {d : DeviceBoxes} {threads : Nat}
    (h : DeviceBoxes.build g grid threads = .ok d) :
  (d.switch.toList.map (·.place)).Nodup
    ∧ (∀ b ∈ d.switch.toList, grid.Holds b.place ∧ SwitchBox.build g grid b.place = .ok b)
    ∧ ∀ t, grid.Holds t → ∃ b ∈ d.switch.toList, b.place = t
  := by
  obtain ⟨hplaces, hboxes⟩ := boxes_of_forall₂ (DeviceBoxes.built_of_build h).switch
  refine ⟨?_, ?_, ?_⟩
  · rw [hplaces]
    apply DeviceBoxes.nodup_tiles
  · intro b hb
    have hplace := List.mem_map_of_mem (f := (·.place)) hb
    rw [hplaces] at hplace
    exact ⟨DeviceBoxes.mem_tiles_iff.mp hplace, hboxes b hb⟩
  · intro t ht
    apply List.mem_map.mp
    rw [hplaces]
    apply DeviceBoxes.mem_tiles_iff.mpr ht

/-- The switch boxes of a device list each wire for each tile that it runs through. -/
theorem enumerates_listings (hg : g.Listed) {d : DeviceBoxes} {threads : Nat}
    (h : DeviceBoxes.build g grid threads = .ok d) :
  Enumerates (IsBetween g grid) (listings d)
  := by
  obtain ⟨hnodup, hboxes, hall⟩ := boxes_of_build h
  apply Enumerates.congr
  · apply Enumerates.flatMap (R := fun b l => ∃ side ∈ Side.all, Lists g grid b.place side l)
      hnodup.of_map
    · intro b hb
      apply Enumerates.flatMap (R := Lists g grid b.place) (by decide)
      · intro side _
        apply enumerates_listingsOn hg (hboxes b hb).2
      · rintro side - side' - l hl hl'
        rw [← hl.place.2, hl'.place.2]
    · rintro b hb b' hb' l ⟨side, -, hl⟩ ⟨side', -, hl'⟩
      apply List.inj_on_of_nodup_map hnodup hb hb'
      rw [← hl.place.1, hl'.place.1]
  · intro l
    rw [← exists_lists_iff]
    constructor
    · rintro ⟨b, hb, side, -, hl⟩
      exact ⟨b.place, (hboxes b hb).1, side, hl⟩
    · rintro ⟨t, ht, side, hl⟩
      obtain ⟨b, hb, rfl⟩ := hall t ht
      exact ⟨b, hb, side, side.mem_all, hl⟩

/-- A wire is listed for the tile that it is between boxes at. -/
theorem eq_of_mem_between {id : NodeId} {d : Option Direction} (h : l ∈ between axis t id d) :
  l.wire = id ∧ l.segment = some t
  := by
  rcases List.mem_pair.mp h with rfl | rfl <;> exact ⟨rfl, rfl⟩

/-- For a tile that a wire runs through it is listed on the two sides that face the tile. -/
theorem perm_between {ls : List Listing} (hls : Enumerates (IsBetween g grid) ls) {id : NodeId}
    {n : Node} (hn : g.node id = .ok n) (hruns : Runs grid axis t n) :
  (ls.filter fun l => l.wire = id ∧ l.segment = some t).Perm (between axis t id n.direction)
  := by
  have hside : axis.ahead.opposite ≠ axis.ahead := axis.ahead.opposite_ne
  apply (List.perm_ext_iff_of_nodup (hls.nodup.filter _) (by simp [between, hside.symm])).mpr
  intro l
  rw [List.mem_filter, hls.mem_iff, decide_eq_true_iff]
  constructor
  · -- a listing for the same wire and tile is along the same axis, as the wire is of one kind
    rintro ⟨⟨axis', t', id', n', hn', hruns', l, hl⟩, hwire, hsegment⟩
    obtain ⟨rfl, hsegment'⟩ := eq_of_mem_between hl
    rw [hwire, hn] at hn'
    cases hn'
    rw [hsegment] at hsegment'
    cases hsegment'
    rw [← hwire, axis_eq_of_ofAxis_eq (hruns.kind.symm.trans hruns'.kind)]
    exact hl
  · intro hl
    exact ⟨.wire axis t id n hn hruns l hl, eq_of_mem_between hl⟩

/-! ### Pins -/

/-- The sides of blocks next to a side of a switch box are those along its segment. -/
theorem blocksAt_perm (t : Tile) (side : Side) :
  (blocksAt t side).Perm (bordering (geometry side).axis (segmentAt t side))
  := by
  cases side
  · apply List.Perm.swap
  · apply List.Perm.refl
  · apply List.Perm.refl
  · apply List.Perm.swap

/-- The pins on a side of a block that are listed are those that sit there. -/
theorem enumerates_blockPins (hg : g.Listed) (hkind : kind.isPin = true) (block : Tile)
    (side : Side) :
  Enumerates (fun p => (∃ n, g.node p.node = .ok n ∧ n.kind = kind ∧ n.low = block
    ∧ n.side = some side) ∧ p.block = block ∧ p.side = side) (blockPins g kind block side)
  := by
  constructor
  · apply hg.nodup_pinsAt.map
    intro id id' heq
    injection heq
  · rintro ⟨id, block', side'⟩
    simp only [blockPins, List.mem_map, hg.mem_pinsAt_iff, Node.isAt_pin_iff hkind]
    constructor
    · rintro ⟨id', ⟨n, hn, ⟨hk, hlow⟩, hside⟩, heq⟩
      cases heq
      exact ⟨⟨n, hn, hk, hlow, hside⟩, rfl, rfl⟩
    · rintro ⟨⟨n, hn, hk, hlow, hside⟩, rfl, rfl⟩
      exact ⟨id, ⟨n, hn, ⟨hk, hlow⟩, hside⟩, rfl⟩

/-- The pins on the sides of blocks along a segment are those that sit there. -/
theorem enumerates_pins (hg : g.Listed) (hkind : kind.isPin = true) {keys : List (Tile × Side)}
    (hkeys : keys.Perm (bordering axis t)) :
  Enumerates (Sits g kind axis t) (keys.flatMap fun key => blockPins g kind key.1 key.2)
  := by
  apply Enumerates.congr
  · apply Enumerates.flatMap (hkeys.nodup_iff.mpr (nodup_bordering axis t))
    · intro key _
      apply enumerates_blockPins hg hkind key.1 key.2
    · rintro key - key' - p ⟨-, hblock, hside⟩ ⟨-, hblock', hside'⟩
      rw [Prod.ext_iff, ← hblock, ← hside, hblock', hside']
      exact ⟨rfl, rfl⟩
  · rintro ⟨id, block, side⟩
    constructor
    · rintro ⟨⟨_, _⟩, hkey, hnode, rfl, rfl⟩
      exact ⟨hnode, mem_bordering_iff.mp (hkeys.mem_iff.mp hkey)⟩
    · rintro ⟨hnode, hborders⟩
      exact ⟨(block, side), hkeys.mem_iff.mpr (mem_bordering_iff.mpr hborders), hnode, rfl, rfl⟩

/-- A connection box lists the pins along its segment, if a wire spans that. -/
theorem enumerates_pins_of_build (hg : g.Listed) {c : ConnectionBox}
    (h : ConnectionBox.build g t axis = .ok c)
    (hwire : ∃ id w, g.node id = .ok w ∧ w.kind = Kind.ofAxis axis ∧ w.covers t = true) :
  Enumerates (Sits g .inPin axis t) c.sides.pins
  := by
  obtain ⟨id, w, hw, hfound⟩ := hwire
  have hmem := hg.mem_nodesAt_iff.mpr ⟨w, hw, Node.isAt_ofAxis_iff.mpr hfound⟩
  rw [(pins_of_build h).2.2, if_neg (by
    intro hempty
    rw [List.isEmpty_iff.mp hempty] at hmem
    cases hmem)]
  apply enumerates_pins hg rfl (List.Perm.refl _)

/-- A device has the connection box of each tile of the grid. -/
theorem exists_connectionAt {d : DeviceBoxes} {threads : Nat}
    (h : DeviceBoxes.build g grid threads = .ok d) (ht : grid.Holds t) (axis : Axis) :
  ∃ c, d.connectionAt t axis = .ok (some c) ∧ ConnectionBox.build g t axis = .ok c
  := by
  obtain ⟨hcolumns, hrows⟩ := DeviceBoxes.columns_of_build h
  obtain ⟨i, hi, hti⟩ := DeviceBoxes.exists_indexOf? hcolumns hrows ht
  obtain ⟨c, hc, hbuild⟩ :=
    exists_getElem?_of_forall₂ ((DeviceBoxes.built_of_build h).connection axis) hti
  rw [Array.getElem?_toList] at hc
  use c
  constructor
  · simp only [DeviceBoxes.connectionAt, hi, entry_eq_ok_iff.mpr hc, ok_bind]
    rfl
  · apply hbuild

/-- The pins on a side of a switch box are the output pins along its segment, and the segment is at a
tile of the grid. -/
theorem enumerates_pins_of_segment (hg : g.Listed) (hb : SwitchBox.build g grid b.place = .ok b)
    (hplace : grid.Holds b.place) (hsegment : (b.sides.get side).segment = some t) :
  grid.Holds t ∧ Enumerates (Sits g .outPin (geometry side).axis t) (b.sides.get side).pins
  := by
  rcases buildSide_cases ((sides_of_build hb).2 side) with ⟨-, hside⟩ | ⟨hboundary, hside⟩
  · rw [hside] at hsegment
    cases hsegment
  · rw [hside] at hsegment ⊢
    cases hsegment
    constructor
    · apply (faces_iff.mp ⟨hplace, hboundary, rfl, rfl⟩).2.1
    · apply enumerates_pins hg rfl (blocksAt_perm b.place side)

/-! ### Geometry -/

/-- In a device built by any number of threads, a wire is listed for each tile of the grid that it
runs through behind the first of its row or column, once by the box behind the tile and once by the
box of the tile, on the sides that face each other there, where it leaves the one box and enters the
other; no wire is listed elsewhere. The pins on a side of a switch box are the output pins on the
sides of blocks along its segment, where the connection box of the segment has the input pins, if a
wire spans it. -/
theorem exists_build_facing (g : RoutingGraph) (grid : Grid) (threads : Nat)
    (hwidth : grid.width < wordLimit) (hheight : grid.height < wordLimit) :
  ∃ d, DeviceBoxes.build g.buildLookup grid threads = .ok d
    ∧ (∀ axis t id n, g.node id = .ok n → Runs grid axis t n →
      ((listings d).filter fun l => l.wire = id ∧ l.segment = some t).Perm
        (between axis t id n.direction))
    ∧ (∀ l ∈ listings d, ∃ axis t n, g.node l.wire = .ok n ∧ Runs grid axis t n
      ∧ l ∈ between axis t l.wire n.direction)
    ∧ ∀ b ∈ d.switch, ∀ side t, (b.sides.get side).segment = some t →
      Enumerates (Sits g .outPin (geometry side).axis t) (b.sides.get side).pins
      ∧ ∃ c, d.connectionAt t (geometry side).axis = .ok (some c)
        ∧ ((∃ id w, g.node id = .ok w ∧ w.kind = Kind.ofAxis (geometry side).axis
          ∧ w.covers t = true) → Enumerates (Sits g .inPin (geometry side).axis t) c.sides.pins)
  := by
  have hg := g.listed_buildLookup
  obtain ⟨hcolumns, hrows⟩ := DeviceBoxes.columnCount_lt hwidth hheight
  obtain ⟨d, hd, -⟩ := DeviceBoxes.exists_build hcolumns hrows threads (g := g.buildLookup)
  have hlistings := enumerates_listings hg hd
  obtain ⟨-, hboxes, -⟩ := boxes_of_build hd
  refine ⟨d, hd, ?_, ?_, ?_⟩
  · intro axis t id n hn hruns
    apply perm_between hlistings hn hruns
  · intro l hl
    obtain ⟨axis, t, id, n, hn, hruns, l, hl⟩ := (hlistings.mem_iff l).mp hl
    obtain ⟨rfl, -⟩ := eq_of_mem_between hl
    exact ⟨axis, t, n, hn, hruns, hl⟩
  · intro b hb side t hsegment
    obtain ⟨hplace, hbuild⟩ := hboxes b (Array.mem_toList_iff.mpr hb)
    obtain ⟨ht, hpins⟩ := enumerates_pins_of_segment hg hbuild hplace hsegment
    obtain ⟨c, hc, hcbuild⟩ := exists_connectionAt hd ht (geometry side).axis
    exact ⟨hpins, c, hc, enumerates_pins_of_build hg hcbuild⟩

/-- The wire that runs to the right leaves the box behind its second tile and enters the one of that
tile, and the connection box of its first tile has the pin above. -/
theorem exists_build_crossing_facing :
  ∃ d, DeviceBoxes.build DeviceBoxes.crossing.buildLookup ⟨3, 3⟩ 2 = .ok d
    ∧ ((listings d).filter fun l => l.wire = 0 ∧ l.segment = some ⟨2, 1⟩).Perm
      [⟨⟨1, 1⟩, .right, some ⟨2, 1⟩, 0, .outgoing⟩, ⟨⟨2, 1⟩, .left, some ⟨2, 1⟩, 0, .incoming⟩]
    ∧ ∃ c, d.connectionAt ⟨1, 1⟩ .x = .ok (some c) ∧ ⟨2, ⟨1, 2⟩, .bottom⟩ ∈ c.sides.pins
  := by
  obtain ⟨d, hd, hruns, -, hpins⟩ :=
    exists_build_facing DeviceBoxes.crossing ⟨3, 3⟩ 2 (by decide) (by decide)
  have hfirst := hruns .x ⟨1, 1⟩ 0 _ rfl ⟨rfl, by decide, by decide, by decide⟩
  have hmem := List.mem_of_mem_filter (hfirst.mem_iff.mpr List.mem_cons_self)
  obtain ⟨b, hb, hmem⟩ := List.mem_flatMap.mp hmem
  obtain ⟨side, -, hmem⟩ := List.mem_flatMap.mp hmem
  obtain ⟨e, -, he⟩ := List.mem_map.mp hmem
  injection he with _ hside hsegment
  obtain ⟨-, c, hc, hin⟩ := hpins b (Array.mem_toList_iff.mp hb) side ⟨1, 1⟩ hsegment
  obtain rfl : side = .right := hside
  refine ⟨d, hd, ?_, c, hc, ?_⟩
  · apply hruns .x ⟨2, 1⟩ 0 _ rfl
    constructor <;> decide
  · apply ((hin ⟨0, _, rfl, rfl, by decide⟩).mem_iff _).mpr
    exact ⟨⟨_, rfl, rfl, rfl, rfl⟩, .bottom 1 1⟩

end Box

end RoutingFabric
