import RoutingFabric.Box.Device
import RoutingFabric.Proofs.Slices

/-!
# Boxes are built

On a grid whose sides fit a machine word all boxes are built, by any number of threads, and the
nodes that have their multiplexers in them are nodes of the graph.
-/

namespace RoutingFabric

/-! ### Nodes of boxes -/

namespace Box

open RoutingGraph

/-- The wires and the pins on the side are nodes of the graph. -/
structure BoxSide.Within (g : RoutingGraph) (s : BoxSide) : Prop where
  channel : ∀ e ∈ s.channel, ∃ n, g.node e.node = .ok n
  pins : ∀ p ∈ s.pins, ∃ n, g.node p.node = .ok n

/-- The nodes that are looked up are nodes of the graph. -/
theorem exists_node_of_mem_nodesAt {g : RoutingGraph} {kind : Kind} {t : Tile} {id : NodeId}
    (h : id ∈ g.nodesAt kind t) :
  ∃ n, g.node id = .ok n
  := by
  obtain ⟨-, hat⟩ := List.mem_filter.mp h
  rw [isAt] at hat
  split at hat
  · rename_i n hn
    use n
    apply entry_eq_ok_iff.mpr hn
  · cases hat

/-- The pins on a side of a block are nodes of the graph. -/
theorem exists_node_of_mem_blockPins {g : RoutingGraph} {kind : Kind} {block : Tile} {side : Side}
    {p : BlockPin} (h : p ∈ blockPins g kind block side) :
  ∃ n, g.node p.node = .ok n
  := by
  obtain ⟨id, hid, rfl⟩ := List.mem_map.mp h
  obtain ⟨hmem, -⟩ := List.mem_filter.mp hid
  apply exists_node_of_mem_nodesAt hmem

/-- A tile next to one inside of a grid exists. -/
theorem Offset.exists_from (o : Offset) {t : Tile} (hx : t.x + 1 < wordLimit)
    (hy : t.y + 1 < wordLimit) :
  ∃ t', o.from t = .ok t'
  := by
  have hright : t.x + o.right.toNat < wordLimit := by
    have := o.right.toNat_le
    omega
  have hup : t.y + o.up.toNat < wordLimit := by
    have := o.up.toNat_le
    omega
  use ⟨t.x + o.right.toNat, t.y + o.up.toNat⟩
  rw [Offset.from, word_of_lt hright, word_of_lt hup]
  rfl

end Box

namespace SwitchBox

open RoutingGraph Box

/-- The nodes of the box that have multiplexers are nodes of the graph. -/
theorem exists_node_of_mem_muxNodes {g : RoutingGraph} {b : SwitchBox} {id : NodeId}
    (h : id ∈ b.muxNodes) (hsides : ∀ side, (b.sides.get side).Within g) :
  ∃ n, g.node id = .ok n
  := by
  obtain ⟨s, hs, hid⟩ := List.mem_flatMap.mp h
  obtain ⟨side, -, rfl⟩ := List.mem_map.mp hs
  obtain ⟨e, he, rfl⟩ := List.mem_map.mp hid
  apply (hsides side).channel e (List.mem_filter.mp he).1

/-- The pins on sides of blocks next to a tile inside of a grid are found. -/
theorem exists_mapM_blockPins (g : RoutingGraph) (blocks : List (Offset × Side)) {t : Tile}
    (hx : t.x + 1 < wordLimit) (hy : t.y + 1 < wordLimit) :
  ∃ pins, (blocks.mapM fun (offset, side) => do
      return blockPins g .outPin (← offset.from t) side) = .ok pins
    ∧ ∀ ps ∈ pins, ∀ p ∈ ps, ∃ n, g.node p.node = .ok n
  := by
  apply exists_mapM_eq_ok (P := fun ps => ∀ p : BlockPin, p ∈ ps → ∃ n, g.node p.node = .ok n)
  rintro ⟨offset, side⟩ -
  obtain ⟨block, hblock⟩ := offset.exists_from hx hy
  use blockPins g .outPin block side
  constructor
  · simp only [hblock, ok_bind]
    rfl
  · intro p hp
    apply exists_node_of_mem_blockPins hp

/-- A side of a switch box inside of a grid is built. -/
theorem exists_buildSide (g : RoutingGraph) (grid : Grid) {t : Tile} (side : Side)
    (hx : t.x + 1 < wordLimit) (hy : t.y + 1 < wordLimit) :
  ∃ s, buildSide g grid t side = .ok s ∧ s.Within g
  := by
  rw [buildSide]
  split
  · use {}, rfl
    constructor <;> intro e he <;> cases he
  · obtain ⟨segment, hsegment⟩ := (geometry side).segment.exists_from hx hy
    obtain ⟨pins, hpins, hwithin⟩ := exists_mapM_blockPins g (geometry side).blocks hx hy
    simp only [hsegment, ok_bind, hpins]
    refine ⟨_, rfl, ?_⟩
    constructor
    · intro e he
      obtain ⟨id, hid, rfl⟩ := List.mem_map.mp he
      apply exists_node_of_mem_nodesAt hid
    · intro p hp
      obtain ⟨ps, hps, hp⟩ := List.mem_flatten.mp hp
      apply hwithin ps hps p hp

/-- A switch box inside of a grid is built. -/
theorem exists_build (g : RoutingGraph) (grid : Grid) {t : Tile} (hx : t.x + 1 < wordLimit)
    (hy : t.y + 1 < wordLimit) :
  ∃ b, build g grid t = .ok b ∧ ∀ id ∈ b.muxNodes, ∃ n, g.node id = .ok n
  := by
  obtain ⟨top, htop, htop'⟩ := exists_buildSide g grid .top hx hy
  obtain ⟨right, hright, hright'⟩ := exists_buildSide g grid .right hx hy
  obtain ⟨bottom, hbottom, hbottom'⟩ := exists_buildSide g grid .bottom hx hy
  obtain ⟨left, hleft, hleft'⟩ := exists_buildSide g grid .left hx hy
  use { place := t, sides := { top, right, bottom, left } }
  constructor
  · simp only [build, htop, hright, hbottom, hleft, ok_bind]
    rfl
  · intro id hid
    apply exists_node_of_mem_muxNodes hid
    intro side
    cases side <;> assumption

end SwitchBox

namespace ConnectionBox

open RoutingGraph Box

/-- The nodes of the box that have multiplexers are nodes of the graph. -/
theorem exists_node_of_mem_muxNodes {g : RoutingGraph} {b : ConnectionBox} {id : NodeId}
    (h : id ∈ b.muxNodes) (hsides : ∀ side, (b.sides.get side).Within g) :
  ∃ n, g.node id = .ok n
  := by
  obtain ⟨s, hs, hid⟩ := List.mem_flatMap.mp h
  obtain ⟨side, -, rfl⟩ := List.mem_map.mp hs
  obtain ⟨p, hp, rfl⟩ := List.mem_map.mp hid
  apply (hsides side).pins p hp

/-- A side that the channel enters through lists nodes of the graph. -/
theorem within_channelSide {g : RoutingGraph} (t : Tile) {wires : List NodeId}
    (hwires : ∀ id ∈ wires, ∃ n, g.node id = .ok n) (side : Side) :
  (channelSide g t wires side).Within g
  := by
  constructor
  · intro e he
    obtain ⟨id, hid, rfl⟩ := List.mem_map.mp he
    apply hwires id hid
  · intro p hp
    cases hp

/-- A side that borders a block lists nodes of the graph. -/
theorem within_pinSide (g : RoutingGraph) (block : Tile) (side : Side) :
  (pinSide g block side).Within g
  := by
  constructor
  · intro e he
    cases he
  · intro p hp
    apply exists_node_of_mem_blockPins hp

/-- The sides of a connection box inside of a grid are built. -/
theorem exists_buildSides {g : RoutingGraph} {t : Tile} (axis : Axis) {wires : List NodeId}
    (hx : t.x + 1 < wordLimit) (hy : t.y + 1 < wordLimit)
    (hwires : ∀ id ∈ wires, ∃ n, g.node id = .ok n) :
  ∃ sides, buildSides g t axis wires = .ok sides ∧ ∀ side, (sides.get side).Within g
  := by
  have hchannel := within_channelSide t hwires
  cases axis with
  | x =>
    obtain ⟨above, habove⟩ := Offset.exists_from ⟨false, true⟩ hx hy
    simp only [buildSides, habove, ok_bind]
    refine ⟨_, rfl, ?_⟩
    intro side
    cases side with
    | top => apply within_pinSide
    | right => apply hchannel
    | bottom => apply within_pinSide
    | left => apply hchannel
  | y =>
    obtain ⟨beside, hbeside⟩ := Offset.exists_from ⟨true, false⟩ hx hy
    simp only [buildSides, hbeside, ok_bind]
    refine ⟨_, rfl, ?_⟩
    intro side
    cases side with
    | top => apply hchannel
    | right => apply within_pinSide
    | bottom => apply hchannel
    | left => apply within_pinSide

/-- A connection box inside of a grid is built. -/
theorem exists_build (g : RoutingGraph) {t : Tile} (axis : Axis) (hx : t.x + 1 < wordLimit)
    (hy : t.y + 1 < wordLimit) :
  ∃ b, build g t axis = .ok b ∧ ∀ id ∈ b.muxNodes, ∃ n, g.node id = .ok n
  := by
  rw [build]
  split
  · refine ⟨_, rfl, ?_⟩
    intro id hid
    apply exists_node_of_mem_muxNodes hid
    intro side
    cases side <;> constructor <;> intro e he <;> cases he
  · have hwires : ∀ id ∈ g.nodesAt (Kind.ofAxis axis) t, ∃ n, g.node id = .ok n := by
      intro id hid
      apply exists_node_of_mem_nodesAt hid
    obtain ⟨sides, hsides, hwithin⟩ := exists_buildSides axis hx hy hwires
    rw [hsides, ok_bind]
    refine ⟨_, rfl, ?_⟩
    intro id hid
    apply exists_node_of_mem_muxNodes hid hwithin

end ConnectionBox

namespace DeviceBoxes

variable {g : RoutingGraph} {grid : Grid}

/-- The nodes that have multiplexers in the boxes are nodes of the graph. -/
structure Within (g : RoutingGraph) (d : DeviceBoxes) : Prop where
  switch : ∀ b ∈ d.switch.toList, ∀ id ∈ b.muxNodes, ∃ n, g.node id = .ok n
  connectionX : ∀ b ∈ d.connectionX.toList, ∀ id ∈ b.muxNodes, ∃ n, g.node id = .ok n
  connectionY : ∀ b ∈ d.connectionY.toList, ∀ id ∈ b.muxNodes, ∃ n, g.node id = .ok n

/-- The boxes of columns of a grid are built. -/
theorem exists_ofColumns {columns : Range} (hcolumns : columns.stop < wordLimit)
    (hrows : rowCount grid < wordLimit) :
  ∃ d, ofColumns g grid columns = .ok d ∧ d.Within g
  := by
  have htiles : ∀ t ∈ tiles grid columns, t.x + 1 < wordLimit ∧ t.y + 1 < wordLimit := by
    intro t ht
    obtain ⟨x, hx, ht⟩ := List.mem_flatMap.mp ht
    obtain ⟨y, hy, rfl⟩ := List.mem_map.mp ht
    rw [Range.toList, List.mem_range', Range.length] at hx
    rw [List.mem_range] at hy
    obtain ⟨i, hi, rfl⟩ := hx
    dsimp only
    omega
  obtain ⟨switch, hswitch, hswitch'⟩ := exists_mapM_eq_ok fun t ht =>
    SwitchBox.exists_build g grid (htiles t ht).1 (htiles t ht).2
  obtain ⟨connectionX, hx, hx'⟩ := exists_mapM_eq_ok fun t ht =>
    ConnectionBox.exists_build g .x (htiles t ht).1 (htiles t ht).2
  obtain ⟨connectionY, hy, hy'⟩ := exists_mapM_eq_ok fun t ht =>
    ConnectionBox.exists_build g .y (htiles t ht).1 (htiles t ht).2
  simp only [ofColumns, hswitch, hx, hy, ok_bind]
  refine ⟨_, rfl, ?_⟩
  constructor
  · apply hswitch'
  · apply hx'
  · apply hy'

/-- Boxes side by side hold the nodes that each of them hold. -/
theorem Within.beside {a b : DeviceBoxes} (ha : a.Within g) (hb : b.Within g) :
  (a.beside b).Within g
  := by
  constructor
  · intro s hs
    rw [DeviceBoxes.beside, Array.toList_append, List.mem_append] at hs
    rcases hs with hs | hs
    · apply ha.switch s hs
    · apply hb.switch s hs
  · intro s hs
    rw [DeviceBoxes.beside, Array.toList_append, List.mem_append] at hs
    rcases hs with hs | hs
    · apply ha.connectionX s hs
    · apply hb.connectionX s hs
  · intro s hs
    rw [DeviceBoxes.beside, Array.toList_append, List.mem_append] at hs
    rcases hs with hs | hs
    · apply ha.connectionY s hs
    · apply hb.connectionY s hs

/-- The boxes of many columns hold the nodes that those of some hold. -/
theorem Within.foldl_beside {d : DeviceBoxes} {ds : List DeviceBoxes} (hd : d.Within g)
    (hds : ∀ d ∈ ds, d.Within g) :
  (ds.foldl DeviceBoxes.beside d).Within g
  := by
  induction ds generalizing d with
  | nil => apply hd
  | cons d' ds ih =>
    apply ih (hd.beside (hds d' List.mem_cons_self))
    intro d'' hd''
    apply hds d'' (List.mem_cons_of_mem d' hd'')

/-- The columns that threads build are columns of the grid. -/
theorem stop_le_of_mem_shards {threads : Nat} {r : Range} (h : r ∈ shards grid threads) :
  r.stop ≤ columnCount grid
  := by
  rw [shards] at h
  split at h
  · obtain rfl := List.mem_singleton.mp h
    apply Nat.le_refl
  · apply Range.stop_le_of_mem_slices (Nat.zero_le _) h

/-- The boxes of a device are built, by any number of threads. -/
theorem exists_build (hcolumns : columnCount grid < wordLimit) (hrows : rowCount grid < wordLimit)
    (threads : Nat) :
  ∃ d, build g grid threads = .ok d ∧ d.Within g
  := by
  have hshards : ∀ r ∈ shards grid threads, ∃ d, ofColumns g grid r = .ok d ∧ d.Within g := by
    intro r hr
    have hstop := stop_le_of_mem_shards hr
    apply exists_ofColumns (by omega) hrows
  obtain ⟨ds, hds, hwithin⟩ := exists_mapM_eq_ok hshards
  simp only [build, hds, ok_bind]
  refine ⟨_, rfl, ?_⟩
  apply Within.foldl_beside _ hwithin
  constructor <;> intro b hb <;> cases hb

end DeviceBoxes

end RoutingFabric
