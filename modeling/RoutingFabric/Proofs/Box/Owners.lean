import RoutingFabric.Proofs.Box.Build
import RoutingFabric.Proofs.RoutingGraph.Lookup

/-!
# Boxes that own multiplexers

The multiplexer in front of a wire is in the switch box in front of the segment where the wire
starts, and the multiplexer in front of an input pin is in the connection box of the segment that
the side of the pin borders. A node has a multiplexer in one box at most, and each box lists the
nodes that have theirs in it.
-/

namespace RoutingFabric

/-- The coordinate of a tile along an axis. -/
def Tile.along (t : Tile) : Axis → Nat
  | .x => t.x
  | .y => t.y

/-- The tile one step back along an axis. -/
def Tile.back (t : Tile) : Axis → Tile
  | .x => ⟨t.x - 1, t.y⟩
  | .y => ⟨t.x, t.y - 1⟩

/-- Whether a tile is one of the grid. -/
def Grid.Holds (grid : Grid) (t : Tile) : Prop := t.x ≤ grid.lastX ∧ t.y ≤ grid.lastY

instance (grid : Grid) (t : Tile) : Decidable (grid.Holds t) :=
  inferInstanceAs (Decidable (t.x ≤ grid.lastX ∧ t.y ≤ grid.lastY))

/-! ### Lists of what has a property -/

/-- A list holds all that has a property, each once. -/
structure Enumerates {α : Type} (P : α → Prop) (xs : List α) : Prop where
  nodup : xs.Nodup
  mem_iff : ∀ x, x ∈ xs ↔ P x

namespace Enumerates

variable {α κ : Type} {P Q : α → Prop} {xs : List α}

/-- Where nothing has the property, the list is empty. -/
theorem nil (h : ∀ x, ¬ P x) : Enumerates P [] := by
  constructor
  · apply List.nodup_nil
  · intro x
    simp [h x]

/-- A list may be read as one of an equivalent property. -/
theorem congr (h : Enumerates P xs) (hPQ : ∀ x, P x ↔ Q x) : Enumerates Q xs := by
  constructor
  · apply h.nodup
  · intro x
    rw [h.mem_iff, hPQ]

/-- Lists for different keys, of properties that exclude each other, make up one list. -/
theorem flatMap {keys : List κ} {f : κ → List α} {R : κ → α → Prop} (hkeys : keys.Nodup)
    (hf : ∀ k ∈ keys, Enumerates (R k) (f k))
    (hR : ∀ k ∈ keys, ∀ k' ∈ keys, ∀ x, R k x → R k' x → k = k') :
  Enumerates (fun x => ∃ k ∈ keys, R k x) (keys.flatMap f)
  := by
  constructor
  case nodup =>
    apply List.nodup_flatMap.mpr
    constructor
    · intro k hk
      apply (hf k hk).nodup
    · apply List.Pairwise.imp_of_mem _ hkeys
      intro k k' hk hk' hne x hx hx'
      apply hne
      apply hR k hk k' hk' x
      · apply ((hf k hk).mem_iff x).mp hx
      · apply ((hf k' hk').mem_iff x).mp hx'
  case mem_iff =>
    intro x
    rw [List.mem_flatMap]
    apply exists_congr
    intro k
    rw [and_congr_right_iff]
    intro hk
    apply (hf k hk).mem_iff

end Enumerates

namespace Box

open RoutingGraph

/-- A box of a device, by its kind and its tile. -/
inductive Place where
  | switch (t : Tile)
  | connection (axis : Axis) (t : Tile)
  deriving DecidableEq

/-- A side of a block borders the channel segment along an axis at a tile. -/
inductive Borders : Tile → Side → Axis → Tile → Prop where
  | top (x y : Nat) : Borders ⟨x, y⟩ .top .x ⟨x, y⟩
  | bottom (x y : Nat) : Borders ⟨x, y + 1⟩ .bottom .x ⟨x, y⟩
  | right (x y : Nat) : Borders ⟨x, y⟩ .right .y ⟨x, y⟩
  | left (x y : Nat) : Borders ⟨x + 1, y⟩ .left .y ⟨x, y⟩

/-- The tile of the switch box through which a wire along an axis is entered, by its direction and
the tile where it starts. -/
def entrance (axis : Axis) (d : Option Direction) (start : Tile) : Tile :=
  if d = some .increasing then start.back axis else start

/-- The box has the multiplexer in front of the node. -/
inductive Owns (g : RoutingGraph) (grid : Grid) (n : Node) : Place → Prop where
  /-- a wire that spans a tile, and starts behind the first tile of its row or column, is entered in
  front of the segment where it starts -/
  | wire (axis : Axis) (kind : n.kind = Kind.ofAxis axis)
      (extent : n.low.x ≤ n.high.x ∧ n.low.y ≤ n.high.y) (first : 1 ≤ n.start.along axis)
      (inside : grid.Holds n.start) :
    Owns g grid n (.switch (entrance axis n.direction n.start))
  /-- a pin on a side that borders a segment is fed from there if there is a wire -/
  | pin (side : Side) (axis : Axis) (t : Tile) (kind : n.kind = .inPin) (sits : n.side = some side)
      (borders : Borders n.low side axis t) (inside : grid.Holds t)
      (wire : ∃ id w, g.node id = .ok w ∧ w.kind = Kind.ofAxis axis ∧ w.covers t = true) :
    Owns g grid n (.connection axis t)

/-- The box has the multiplexer in front of the node of an id. -/
def OwnsId (g : RoutingGraph) (grid : Grid) (place : Place) (id : NodeId) : Prop :=
  ∃ n, g.node id = .ok n ∧ Owns g grid n place

variable {g : RoutingGraph} {grid : Grid} {n : Node} {t : Tile} {side : Side} {axis : Axis}

/-! ### A node has one box at most -/

/-- Channels along different axes have wires of different kinds. -/
theorem axis_eq_of_ofAxis_eq {axis' : Axis} (h : Kind.ofAxis axis = Kind.ofAxis axis') :
  axis = axis'
  := by
  cases axis <;> cases axis' <;> first | rfl | cases h

/-- A side of a block borders one segment. -/
theorem Borders.unique {block t' : Tile} {axis' : Axis} (h : Borders block side axis t)
    (h' : Borders block side axis' t') :
  axis = axis' ∧ t = t'
  := by
  cases h <;> cases h' <;> exact ⟨rfl, rfl⟩

/-- A node has its multiplexer in one box at most. -/
theorem Owns.unique {place place' : Place} (h : Owns g grid n place)
    (h' : Owns g grid n place') :
  place = place'
  := by
  cases h with
  | wire axis kind =>
    cases h' with
    | wire axis' kind' =>
      rw [kind] at kind'
      rw [axis_eq_of_ofAxis_eq kind']
    | pin side' axis' t' kind' =>
      rw [kind] at kind'
      cases axis <;> cases kind'
  | pin side axis t kind sits borders =>
    cases h' with
    | wire axis' kind' =>
      rw [kind] at kind'
      cases axis' <;> cases kind'
    | pin side' axis' t' kind' sits' borders' =>
      rw [sits] at sits'
      cases sits'
      obtain ⟨rfl, rfl⟩ := borders.unique borders'
      rfl

/-! ### Sides of switch boxes -/

/-- The tile of the segment on a side of a switch box. -/
def segmentAt (t : Tile) (side : Side) : Tile :=
  ⟨t.x + (geometry side).segment.right.toNat, t.y + (geometry side).segment.up.toNat⟩

/-- A wire that leaves a switch box through a side where it starts. -/
structure Leaves (grid : Grid) (t : Tile) (side : Side) (n : Node) : Prop where
  boundary : SwitchBox.isBoundary grid t side = false
  found : n.isAt (Kind.ofAxis (geometry side).axis) (segmentAt t side) = true
  flow : side.flow n.direction = .outgoing
  starts : n.start = segmentAt t side

/-- The tile at an offset. -/
theorem Offset.eq_of_from {o : Offset} {t' : Tile} (h : o.from t = .ok t') :
  t' = ⟨t.x + o.right.toNat, t.y + o.up.toNat⟩
  := by
  obtain ⟨x, hx, h⟩ := bind_eq_ok_iff.mp h
  obtain ⟨y, hy, h⟩ := bind_eq_ok_iff.mp h
  cases pure_eq_ok_iff.mp h
  rw [eq_of_word hx, eq_of_word hy]

/-- A wire that is not empty spans the tile where it starts. -/
theorem covers_start (h : n.low.x ≤ n.high.x ∧ n.low.y ≤ n.high.y) : n.covers n.start = true := by
  rw [Node.covers, Node.start]
  split <;> simp [h.1, h.2]

/-- A wire that spans a tile is not empty. -/
theorem extent_of_covers (h : n.covers t = true) : n.low.x ≤ n.high.x ∧ n.low.y ≤ n.high.y := by
  simp only [Node.covers, Bool.and_eq_true, decide_eq_true_eq] at h
  omega

/-- A wire of an axis leaves through one side only. -/
theorem Leaves.unique {side' : Side} (h : Leaves grid t side n) (h' : Leaves grid t side' n) :
  side = side'
  := by
  have haxis := axis_eq_of_ofAxis_eq ((Node.isAt_ofAxis_iff.mp h.found).1.symm.trans
    (Node.isAt_ofAxis_iff.mp h'.found).1)
  have hflow := h.flow
  have hflow' := h'.flow
  cases side <;> cases side' <;> simp_all [geometry, Side.flow]

/-- The switch box has the multiplexer in front of a wire that leaves where it starts. -/
theorem Leaves.owns (h : Leaves grid t side n) (ht : grid.Holds t) : Owns g grid n (.switch t) := by
  obtain ⟨hkind, hcovers⟩ := Node.isAt_ofAxis_iff.mp h.found
  have hplace : entrance (geometry side).axis n.direction n.start = t
      ∧ 1 ≤ n.start.along (geometry side).axis ∧ grid.Holds n.start := by
    have hboundary := h.boundary
    have hflow := h.flow
    obtain ⟨hx, hy⟩ := ht
    rw [h.starts]
    cases side <;> simp_all [geometry, segmentAt, Side.flow, SwitchBox.isBoundary, Tile.along,
      Tile.back, entrance, Grid.Holds] <;> omega
  obtain ⟨hback, hfirst, hinside⟩ := hplace
  have howns := Owns.wire (g := g) _ hkind (extent_of_covers hcovers) hfirst hinside
  rw [hback] at howns
  apply howns

/-- The side of a switch box through which wires along an axis leave. -/
def outlet (axis : Axis) (d : Option Direction) : Side :=
  match axis with
  | .x => if d = some .increasing then .right else .left
  | .y => if d = some .increasing then .top else .bottom

/-- A wire that starts behind the first tile of its row or column leaves the switch box where it is
entered through the outlet of that box, behind which is the segment where it starts. -/
theorem outlet_entrance {d : Option Direction} {start : Tile} (first : 1 ≤ start.along axis)
    (inside : grid.Holds start) (ht : t = entrance axis d start) :
  (geometry (outlet axis d)).axis = axis ∧ (outlet axis d).flow d = .outgoing
    ∧ start = segmentAt t (outlet axis d)
    ∧ SwitchBox.isBoundary grid t (outlet axis d) = false ∧ grid.Holds t
  := by
  obtain ⟨x, y⟩ := start
  obtain ⟨hx, hy⟩ := inside
  subst ht
  cases axis <;> by_cases hd : d = some .increasing <;>
    simp_all [outlet, geometry, Side.flow, segmentAt, SwitchBox.isBoundary, Tile.along, Tile.back,
      entrance, Grid.Holds] <;>
    omega

/-- A wire has its multiplexer in a switch box of the grid that it leaves where it starts. -/
theorem Owns.exists_leaves (h : Owns g grid n (.switch t)) :
  grid.Holds t ∧ ∃ side, Leaves grid t side n
  := by
  generalize hplace : Place.switch t = place at h
  cases h with
  | pin => cases hplace
  | wire axis kind extent first inside =>
    injection hplace with ht
    obtain ⟨haxis, hflow, hstarts, hboundary, hholds⟩ := outlet_entrance first inside ht
    refine ⟨hholds, outlet axis n.direction, hboundary, ?_, hflow, hstarts⟩
    rw [haxis, ← hstarts]
    apply Node.isAt_ofAxis_iff.mpr ⟨kind, covers_start extent⟩

/-- The nodes on a side that have their multiplexers in the switch box. -/
def BoxSide.muxNodes (s : BoxSide) : List NodeId :=
  (s.channel.filter fun e => e.flow = .outgoing && !e.passing).map (·.node)

/-- Of wires on a side, those have their multiplexers in the box that leave it and start there. -/
theorem muxNodes_channelEntry (segment : Tile) (ids : List NodeId) :
  ((ids.map (SwitchBox.channelEntry g side segment)).filter
      fun e => e.flow = .outgoing && !e.passing).map (·.node)
    = ids.filter fun id => side.flow (directionOf g id) = .outgoing
      && g.nodes[id]?.map (·.start) = some segment
  := by
  rw [List.filter_map, List.map_map]
  have hnode : (fun e : ChannelEntry => e.node) ∘ SwitchBox.channelEntry g side segment = id := rfl
  rw [hnode, List.map_id]
  apply List.filter_congr
  intro id _
  simp only [Function.comp_apply, SwitchBox.channelEntry]
  by_cases hflow : side.flow (directionOf g id) = .outgoing <;> simp [hflow]

/-- The sides of blocks next to a side of a switch box. -/
def blocksAt (t : Tile) (side : Side) : List (Tile × Side) :=
  (geometry side).blocks.map fun block =>
    (⟨t.x + block.1.right.toNat, t.y + block.1.up.toNat⟩, block.2)

/-- Pins of blocks at offsets are the pins of the blocks there. -/
theorem flatten_of_mapM_blockPins {blocks : List (Offset × Side)} {pins : List (List BlockPin)}
    (h : (blocks.mapM fun (offset, side) => do
      return blockPins g .outPin (← offset.from t) side) = .ok pins) :
  pins.flatten = (blocks.map fun block =>
      ((⟨t.x + block.1.right.toNat, t.y + block.1.up.toNat⟩ : Tile), block.2)).flatMap
    fun key => blockPins g .outPin key.1 key.2
  := by
  rw [mapM_eq_ok_iff] at h
  induction h with
  | nil => rfl
  | cons hblock _ ih =>
    obtain ⟨tile, htile, hpins⟩ := bind_eq_ok_iff.mp hblock
    cases pure_eq_ok_iff.mp hpins
    rw [List.flatten_cons, ih, List.map_cons, List.flatMap_cons, Offset.eq_of_from htile]

/-- A side of a switch box is empty at the edge of the grid. Elsewhere it lists the wires found at
the segment on that side, and the output pins on the sides of blocks next to it. -/
theorem buildSide_cases {s : BoxSide} (h : SwitchBox.buildSide g grid t side = .ok s) :
  SwitchBox.isBoundary grid t side = true ∧ s = {}
    ∨ SwitchBox.isBoundary grid t side = false ∧ s = {
      segment := some (segmentAt t side)
      channel := (g.nodesAt (Kind.ofAxis (geometry side).axis) (segmentAt t side)).map
        (SwitchBox.channelEntry g side (segmentAt t side))
      pins := (blocksAt t side).flatMap fun key => blockPins g .outPin key.1 key.2 }
  := by
  rw [SwitchBox.buildSide] at h
  split at h
  · rename_i hboundary
    cases pure_eq_ok_iff.mp h
    exact .inl ⟨hboundary, rfl⟩
  · rename_i hboundary
    obtain ⟨segment, hsegment, h⟩ := bind_eq_ok_iff.mp h
    obtain ⟨pins, hpins, h⟩ := bind_eq_ok_iff.mp h
    cases pure_eq_ok_iff.mp h
    obtain rfl : segment = segmentAt t side := Offset.eq_of_from hsegment
    right
    rw [flatten_of_mapM_blockPins hpins]
    exact ⟨Bool.eq_false_iff.mpr hboundary, rfl⟩

/-- A side of a switch box lists the wires that leave through it where they start. -/
theorem enumerates_buildSide (hg : g.Listed) {s : BoxSide}
    (h : SwitchBox.buildSide g grid t side = .ok s) :
  Enumerates (fun id => ∃ n, g.node id = .ok n ∧ Leaves grid t side n) s.muxNodes
  := by
  rcases buildSide_cases h with ⟨hboundary, rfl⟩ | ⟨hboundary, rfl⟩
  · apply Enumerates.nil
    rintro id ⟨n, -, hleaves⟩
    rw [hleaves.boundary] at hboundary
    cases hboundary
  · rw [BoxSide.muxNodes, muxNodes_channelEntry]
    constructor
    · apply hg.nodup_nodesAt.filter
    · intro id
      rw [List.mem_filter, hg.mem_nodesAt_iff, Bool.and_eq_true, decide_eq_true_iff,
        decide_eq_true_iff]
      constructor
      · rintro ⟨⟨n, hn, hfound⟩, hflow, hstarts⟩
        rw [directionOf, entry_eq_ok_iff.mp hn] at hflow
        rw [entry_eq_ok_iff.mp hn] at hstarts
        injection hstarts with hstarts
        exact ⟨n, hn, hboundary, hfound, hflow, hstarts⟩
      · rintro ⟨n, hn, hleaves⟩
        rw [directionOf, entry_eq_ok_iff.mp hn]
        refine ⟨⟨n, hn, hleaves.found⟩, hleaves.flow, ?_⟩
        rw [Option.map_some, hleaves.starts]

/-! ### Switch boxes -/

/-- A switch box is made up of its sides. -/
theorem sides_of_build {b : SwitchBox} (h : SwitchBox.build g grid t = .ok b) :
  b.place = t ∧ ∀ side, SwitchBox.buildSide g grid t side = .ok (b.sides.get side)
  := by
  obtain ⟨top, htop, h⟩ := bind_eq_ok_iff.mp h
  obtain ⟨right, hright, h⟩ := bind_eq_ok_iff.mp h
  obtain ⟨bottom, hbottom, h⟩ := bind_eq_ok_iff.mp h
  obtain ⟨left, hleft, h⟩ := bind_eq_ok_iff.mp h
  cases pure_eq_ok_iff.mp h
  refine ⟨rfl, ?_⟩
  intro side
  cases side <;> assumption

/-- A switch box lists the nodes that have their multiplexers in it. -/
theorem enumerates_switchBox (hg : g.Listed) (ht : grid.Holds t) {b : SwitchBox}
    (h : SwitchBox.build g grid t = .ok b) :
  Enumerates (OwnsId g grid (.switch t)) b.muxNodes
  := by
  have hsides := (sides_of_build h).2
  have hmux : b.muxNodes = Side.all.flatMap fun side => (b.sides.get side).muxNodes := by
    rw [SwitchBox.muxNodes, Sides.toList, List.flatMap_map]
    rfl
  rw [hmux]
  apply Enumerates.congr
  · apply Enumerates.flatMap
    · decide
    · intro side _
      apply enumerates_buildSide hg (hsides side)
    · rintro side - side' - id ⟨n, hn, hleaves⟩ ⟨n', hn', hleaves'⟩
      rw [hn] at hn'
      cases hn'
      apply hleaves.unique hleaves'
  · intro id
    constructor
    · rintro ⟨side, -, n, hn, hleaves⟩
      exact ⟨n, hn, hleaves.owns ht⟩
    · rintro ⟨n, hn, howns⟩
      obtain ⟨-, side, hleaves⟩ := howns.exists_leaves
      exact ⟨side, side.mem_all, n, hn, hleaves⟩

/-! ### Connection boxes -/

/-- The sides of blocks along a channel segment. -/
def bordering : Axis → Tile → List (Tile × Side)
  | .x, t => [(⟨t.x, t.y + 1⟩, .bottom), (t, .top)]
  | .y, t => [(⟨t.x + 1, t.y⟩, .left), (t, .right)]

/-- The sides of blocks along a channel segment are those that border it. -/
theorem mem_bordering_iff {block : Tile} :
  (block, side) ∈ bordering axis t ↔ Borders block side axis t
  := by
  constructor
  · intro h
    cases axis with
    | x =>
      rcases List.mem_pair.mp h with h | h <;> cases h
      · apply Borders.bottom
      · apply Borders.top
    | y =>
      rcases List.mem_pair.mp h with h | h <;> cases h
      · apply Borders.left
      · apply Borders.right
  · intro h
    cases h <;> simp [bordering]

/-- No side of a block is twice along a channel segment. -/
theorem nodup_bordering (axis : Axis) (t : Tile) : (bordering axis t).Nodup := by
  cases axis <;> simp [bordering]

/-- The pins on all sides of a box. -/
def Sides.pins (s : Sides) : List BlockPin := s.toList.flatMap (·.pins)

/-- A connection box lists the pins along its segment, if there is a wire. -/
theorem pins_of_build {b : ConnectionBox} (h : ConnectionBox.build g t axis = .ok b) :
  b.place = t ∧ b.axis = axis
    ∧ b.sides.pins = if (g.nodesAt (Kind.ofAxis axis) t).isEmpty then []
      else (bordering axis t).flatMap fun key => blockPins g .inPin key.1 key.2
  := by
  rw [ConnectionBox.build] at h
  split at h
  · rename_i hnone
    cases pure_eq_ok_iff.mp h
    rw [hnone]
    exact ⟨rfl, rfl, rfl⟩
  · rename_i wires hwires
    obtain ⟨sides, hsides, h⟩ := bind_eq_ok_iff.mp h
    cases pure_eq_ok_iff.mp h
    refine ⟨rfl, rfl, ?_⟩
    rw [if_neg (by simpa using hwires)]
    cases axis with
    | x =>
      obtain ⟨above, habove, hsides⟩ := bind_eq_ok_iff.mp hsides
      cases pure_eq_ok_iff.mp hsides
      obtain rfl : above = ⟨t.x, t.y + 1⟩ := Offset.eq_of_from habove
      simp [Sides.pins, Sides.toList, Side.all, Sides.get, bordering, ConnectionBox.pinSide,
        ConnectionBox.channelSide]
    | y =>
      obtain ⟨beside, hbeside, hsides⟩ := bind_eq_ok_iff.mp hsides
      cases pure_eq_ok_iff.mp hsides
      obtain rfl : beside = ⟨t.x + 1, t.y⟩ := Offset.eq_of_from hbeside
      simp [Sides.pins, Sides.toList, Side.all, Sides.get, bordering, ConnectionBox.pinSide,
        ConnectionBox.channelSide]

/-- A connection box has multiplexers in front of the pins along its segment, if there is a wire. -/
theorem muxNodes_of_build {b : ConnectionBox} (h : ConnectionBox.build g t axis = .ok b) :
  b.place = t ∧ b.axis = axis
    ∧ b.muxNodes = if (g.nodesAt (Kind.ofAxis axis) t).isEmpty then []
      else (bordering axis t).flatMap fun key => g.pinsAt .inPin key.1 key.2
  := by
  obtain ⟨hplace, haxis, hpins⟩ := pins_of_build h
  have hnodes : ∀ block side, (blockPins g .inPin block side).map (·.node)
      = g.pinsAt .inPin block side := by
    intro block side
    rw [blockPins, List.map_map]
    apply List.map_id
  refine ⟨hplace, haxis, ?_⟩
  calc b.muxNodes
    _ = b.sides.pins.map (·.node) := List.map_flatMap.symm
    _ = if (g.nodesAt (Kind.ofAxis axis) t).isEmpty then []
        else (bordering axis t).flatMap fun key => g.pinsAt .inPin key.1 key.2 := by
      rw [hpins, apply_ite (List.map _), List.map_flatMap]
      simp only [hnodes, List.map_nil]

/-- A connection box lists the nodes that have their multiplexers in it. -/
theorem enumerates_connectionBox (hg : g.Listed) (ht : grid.Holds t) {b : ConnectionBox}
    (h : ConnectionBox.build g t axis = .ok b) :
  Enumerates (OwnsId g grid (.connection axis t)) b.muxNodes
  := by
  rw [(muxNodes_of_build h).2.2]
  split
  · rename_i hnone
    apply Enumerates.nil
    rintro id ⟨n, -, howns⟩
    cases howns with
    | pin side axis t kind sits borders inside wire =>
      obtain ⟨wireId, w, hw, hkind, hcovers⟩ := wire
      have hmem := hg.mem_nodesAt_iff.mpr ⟨w, hw, Node.isAt_ofAxis_iff.mpr ⟨hkind, hcovers⟩⟩
      rw [List.isEmpty_iff.mp hnone] at hmem
      cases hmem
  · rename_i hsome
    have hwire : ∃ id w, g.node id = .ok w ∧ w.kind = Kind.ofAxis axis ∧ w.covers t = true := by
      obtain ⟨id, hid⟩ := List.exists_mem_of_ne_nil _ (mt List.isEmpty_iff.mpr hsome)
      obtain ⟨w, hw, hfound⟩ := hg.mem_nodesAt_iff.mp hid
      exact ⟨id, w, hw, Node.isAt_ofAxis_iff.mp hfound⟩
    apply Enumerates.congr
    · apply Enumerates.flatMap (R := fun key id => ∃ n, g.node id = .ok n
        ∧ n.isAt .inPin key.1 = true ∧ n.side = some key.2)
      · apply nodup_bordering
      · intro key _
        constructor
        · apply hg.nodup_pinsAt
        · intro id
          apply hg.mem_pinsAt_iff
      · rintro ⟨block, side⟩ - ⟨block', side'⟩ - id ⟨n, hn, hat, hside⟩ ⟨n', hn', hat', hside'⟩
        rw [hn] at hn'
        cases hn'
        rw [Node.isAt_pin_iff rfl] at hat hat'
        rw [hside] at hside'
        cases hside'
        obtain rfl : n.low = block := hat.2
        obtain rfl : n.low = block' := hat'.2
        rfl
    · intro id
      constructor
      · rintro ⟨⟨block, side⟩, hkey, n, hn, hat, hside⟩
        obtain ⟨hkind, rfl⟩ := (Node.isAt_pin_iff rfl).mp hat
        exact ⟨n, hn, .pin side axis t hkind hside (mem_bordering_iff.mp hkey) ht hwire⟩
      · rintro ⟨n, hn, howns⟩
        cases howns with
        | pin side axis t kind sits borders =>
          exact ⟨(n.low, side), mem_bordering_iff.mpr borders, n, hn,
            (Node.isAt_pin_iff rfl).mpr ⟨kind, rfl⟩, sits⟩

end Box

end RoutingFabric
