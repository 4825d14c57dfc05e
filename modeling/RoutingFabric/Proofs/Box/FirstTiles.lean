import RoutingFabric.Proofs.Box.Owners
import RoutingFabric.Proofs.Fabric.Run
import RoutingFabric.Proofs.RoutingGraph.Inverse

/-!
# Where a wire has its multiplexer

A wire that leaves a switch box and has its multiplexer there starts at the channel segment on that
side. In a prepared fabric this is the first tile of the wire in the flow through the side, if the
wire has a direction or spans one tile only. A wire without a direction leaves through the left and
the bottom, as a decreasing one does, but starts at its low corner, as an increasing one does: its
multiplexer is at its far end.
-/

namespace RoutingFabric

open RoutingGraph

/-- The first tile of a wire in the flow that leaves through a side. -/
def RoutingGraph.Node.firstTile (n : Node) : Side → Tile
  | .top | .right => n.low
  | .bottom | .left => n.high

variable {f f' : Fabric} {g : RoutingGraph} {grid : Grid} {t : Tile} {side : Side}

/-- A wire of one way that leaves through a side starts at its first tile in that flow if it has a
direction, or if its first tile is its last. -/
theorem RoutingGraph.Node.start_eq_firstTile_iff {n : Node} (hwire : n.kind.isWire = true)
    (hway : n.OneWay) (hflow : side.flow n.direction = .outgoing) :
  n.start = n.firstTile side ↔ n.direction ≠ none ∨ n.low = n.high
  := by
  cases hdirection : n.direction with
  | none =>
    -- without a direction a wire leaves through the bottom or the left, and starts at its low corner
    cases side <;> simp_all [start, firstTile, Side.flow]
  | some d =>
    cases d with
    | increasing => cases side <;> simp_all [start, firstTile, Side.flow]
    | decreasing => cases side <;> simp_all [start, firstTile, Side.flow]
    | both => exact absurd ⟨hwire, hdirection⟩ hway

/-- In a prepared fabric no wire is of both directions. -/
theorem Fabric.oneWay_of_prepare (h : prepare.Gives f () f') : f'.graph.Every Node.OneWay := by
  obtain ⟨g, -, hswitches⟩ := graph_of_prepare h
  intro id n hn
  apply ((switched_of_identifyDriverSwitches hswitches).2 id n hn).oneWay

namespace Box

/-- A wire on a side of a switch box is a node of the graph that spans the segment on that side. If
it leaves and does not pass, it starts there. -/
theorem exists_wire_of_mem_channel {b : SwitchBox} {e : ChannelEntry}
    (h : SwitchBox.build g grid t = .ok b) (he : e ∈ (b.sides.get side).channel) :
  ∃ n segment, g.node e.node = .ok n ∧ n.kind.isWire = true
    ∧ (b.sides.get side).segment = some segment ∧ n.covers segment = true
    ∧ e.flow = side.flow n.direction
    ∧ (e.flow = .outgoing → e.passing = false → n.start = segment)
  := by
  rcases buildSide_cases ((sides_of_build h).2 side) with ⟨-, hside⟩ | ⟨-, hside⟩
  · rw [hside] at he
    cases he
  · rw [hside] at he ⊢
    obtain ⟨id, hid, rfl⟩ := List.mem_map.mp he
    obtain ⟨n, hn, hat⟩ := isAt_iff.mp (List.mem_filter.mp hid).2
    obtain ⟨hkind, hcovers⟩ := Node.isAt_ofAxis_iff.mp hat
    have hwire : n.kind.isWire = true := by
      rw [hkind]
      cases (geometry side).axis <;> rfl
    refine ⟨n, segmentAt t side, hn, hwire, rfl, hcovers, ?_, ?_⟩
    · simp only [SwitchBox.channelEntry, directionOf, entry_eq_ok_iff.mp hn, Option.bind_some]
    · simp only [SwitchBox.channelEntry, entry_eq_ok_iff.mp hn, Option.map_some]
      intro hflow hpassing
      simpa [hflow] using hpassing

/-- In a prepared fabric, a wire that leaves a switch box through a side and has its multiplexer
there is not empty, and the segment on that side is its first tile in that flow exactly if it has a
direction or spans one tile only. -/
theorem segment_eq_firstTile_iff (hf : Fabric.prepare.Gives f () f') {b : SwitchBox}
    (hb : SwitchBox.build f'.graph grid t = .ok b) {e : ChannelEntry}
    (he : e ∈ (b.sides.get side).channel) (hflow : e.flow = .outgoing) (hpassing : e.passing = false) :
  ∃ n, f'.graph.node e.node = .ok n ∧ (n.low.x ≤ n.high.x ∧ n.low.y ≤ n.high.y)
    ∧ ((b.sides.get side).segment = some (n.firstTile side)
      ↔ n.direction ≠ none ∨ n.low = n.high)
  := by
  obtain ⟨n, segment, hn, hwire, hsegment, hcovers, hentry, hstart⟩ :=
    exists_wire_of_mem_channel hb he
  use n, hn, extent_of_covers hcovers
  rw [hentry] at hflow
  rw [hsegment, Option.some_inj, ← hstart (hentry.trans hflow) hpassing]
  apply Node.start_eq_firstTile_iff hwire (Fabric.oneWay_of_prepare hf _ n hn) hflow

/-- A wire without a direction next to an increasing one. -/
def strayFabric : Fabric where
  grid := ⟨3, 3⟩
  graph := {
    nodes := #[
      { kind := .channelX, low := ⟨1, 1⟩, high := ⟨2, 1⟩, ptc := 0 },
      { kind := .channelX, low := ⟨1, 1⟩, high := ⟨2, 1⟩, ptc := 1,
        direction := some .increasing }]
    lookup := [0, 1] }

/-- The graph with all drivers known. -/
def indexedStray : RoutingGraph :=
  ((do buildDriverIndex; identifyDriverSwitches).run strayFabric.graph).state

/-- The fabric after preparation. -/
def preparedStray : Fabric := { strayFabric with graph := indexedStray }

/-- The fabric is prepared. -/
theorem prepare_strayFabric : Fabric.prepare.Gives strayFabric () preparedStray := by
  apply Fabric.prepare_of_inOrder rfl (g := indexedStray)
  · decide
  · constructor
    · decide +kernel
    · rfl
  · rfl
  · constructor <;> rfl

/-- The switch box behind the low corner of the wires. -/
def boxBehind : SwitchBox where
  place := ⟨0, 1⟩
  sides := {
    top := { segment := some ⟨0, 2⟩ }
    right := {
      segment := some ⟨1, 1⟩
      channel := [⟨0, .incoming, false⟩, ⟨1, .outgoing, false⟩] }
    bottom := { segment := some ⟨0, 1⟩ } }

/-- The switch box at the low corner of the wires. -/
def boxBetween : SwitchBox where
  place := ⟨1, 1⟩
  sides := {
    top := { segment := some ⟨1, 2⟩ }
    right := {
      segment := some ⟨2, 1⟩
      channel := [⟨0, .incoming, false⟩, ⟨1, .outgoing, true⟩] }
    bottom := { segment := some ⟨1, 1⟩ }
    left := {
      segment := some ⟨1, 1⟩
      channel := [⟨0, .outgoing, false⟩, ⟨1, .incoming, false⟩] } }

/-- The increasing wire has its multiplexer where it leaves through the right, in front of its low
corner. -/
theorem segment_eq_firstTile_increasing :
  Fabric.prepare.Gives strayFabric () preparedStray
    ∧ SwitchBox.build preparedStray.graph ⟨3, 3⟩ ⟨0, 1⟩ = .ok boxBehind
    ∧ ∃ n, preparedStray.graph.node 1 = .ok n
      ∧ (boxBehind.sides.get .right).segment = some (n.firstTile .right)
  := by
  have hb : SwitchBox.build preparedStray.graph ⟨3, 3⟩ ⟨0, 1⟩ = .ok boxBehind := by
    decide +kernel
  have hdirection : (preparedStray.graph.node 1).map (·.direction) = .ok (some .increasing) := by
    decide +kernel
  have he : ⟨1, .outgoing, false⟩ ∈ (boxBehind.sides.get .right).channel := by
    decide
  obtain ⟨n, hn, -, hiff⟩ := segment_eq_firstTile_iff prepare_strayFabric hb he rfl rfl
  refine ⟨prepare_strayFabric, hb, n, hn, hiff.mpr (.inl ?_)⟩
  intro hnone
  rw [hn, Except.map, hnone] at hdirection
  cases hdirection

/-- The wire without a direction has its multiplexer where it leaves through the left, at its low
corner, although its first tile in that flow is its high corner. -/
theorem segment_ne_firstTile_undirected :
  Fabric.prepare.Gives strayFabric () preparedStray
    ∧ SwitchBox.build preparedStray.graph ⟨3, 3⟩ ⟨1, 1⟩ = .ok boxBetween
    ∧ ⟨0, .outgoing, false⟩ ∈ (boxBetween.sides.get .left).channel
    ∧ ∃ n, preparedStray.graph.node 0 = .ok n ∧ n.low.x < n.high.x
      ∧ (boxBetween.sides.get .left).segment ≠ some (n.firstTile .left)
  := by
  refine ⟨prepare_strayFabric, by decide +kernel, by decide,
    { kind := .channelX, low := ⟨1, 1⟩, high := ⟨2, 1⟩, ptc := 0 }, by decide +kernel, ?_, ?_⟩
  · decide
  · decide

end Box

end RoutingFabric
