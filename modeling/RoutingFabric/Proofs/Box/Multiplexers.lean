import RoutingFabric.Proofs.Box.Columns
import RoutingFabric.Proofs.Box.Owners

/-!
# Multiplexers of a device

Over all boxes of a device every multiplexer is listed once, by the box that owns it.
-/

namespace RoutingFabric.DeviceBoxes

open Box

variable {g : RoutingGraph} {grid : Grid} {d : DeviceBoxes} {ts : List Tile} {place : Place}
variable {ids : List NodeId}

/-- The boxes of a device by their places, each with the nodes that have their multiplexers in it.
-/
def entries (d : DeviceBoxes) : List (Place × List NodeId) :=
  d.switch.toList.map (fun b => (.switch b.place, b.muxNodes))
    ++ (d.connectionX.toList ++ d.connectionY.toList).map
      fun b => (.connection b.axis b.place, b.muxNodes)

/-- The places of the boxes at tiles. -/
def places (ts : List Tile) : List Place :=
  ts.map .switch ++ (ts.map (.connection .x) ++ ts.map (.connection .y))

/-! ### Places -/

/-- Boxes at different tiles, or of different kinds, have different places. -/
theorem nodup_places (hts : ts.Nodup) : (places ts).Nodup := by
  have hswitch : (ts.map Place.switch).Nodup := by
    apply hts.map
    intro t t' h
    injection h
  have hconnection : ∀ axis, (ts.map (Place.connection axis)).Nodup := by
    intro axis
    apply hts.map
    intro t t' h
    injection h
  apply hswitch.append
  · apply (hconnection .x).append (hconnection .y)
    intro place hx hy
    obtain ⟨t, -, rfl⟩ := List.mem_map.mp hx
    obtain ⟨t', -, h⟩ := List.mem_map.mp hy
    cases h
  · intro place hs hc
    obtain ⟨t, -, rfl⟩ := List.mem_map.mp hs
    rcases List.mem_append.mp hc with hc | hc <;>
      obtain ⟨t', -, h⟩ := List.mem_map.mp hc <;> cases h

/-- A box that has a multiplexer is one of the device. -/
theorem mem_places_of_owns {n : RoutingGraph.Node} (h : Owns g grid n place) :
  place ∈ places (tiles grid ⟨0, columnCount grid⟩)
  := by
  cases place with
  | switch t =>
    apply List.mem_append_left
    apply List.mem_map_of_mem
    apply mem_tiles_iff.mpr h.exists_leaves.1
  | connection axis t =>
    apply List.mem_append_right
    cases h with
    | pin side axis t kind sits borders inside =>
      have ht := mem_tiles_iff.mpr inside
      cases axis with
      | x => apply List.mem_append_left _ (List.mem_map_of_mem ht)
      | y => apply List.mem_append_right _ (List.mem_map_of_mem ht)

/-! ### Entries -/

/-- An entry lists the nodes that have their multiplexers in the box at a place. -/
structure EntryAt (g : RoutingGraph) (grid : Grid) (place : Place)
    (entry : Place × List NodeId) : Prop where
  fst : entry.1 = place
  enumerates : Enumerates (OwnsId g grid place) entry.2

/-- The entries of a device are those of its places. -/
theorem Built.entries (hg : g.Listed) (hd : Built g grid ts d) (hts : ∀ t ∈ ts, grid.Holds t) :
  List.Forall₂ (EntryAt g grid) (places ts) d.entries
  := by
  have hconnection : ∀ axis, List.Forall₂ (EntryAt g grid) (ts.map (.connection axis))
      ((d.connection axis).toList.map fun b => (.connection b.axis b.place, b.muxNodes)) := by
    intro axis
    rw [List.forall₂_map_left_iff, List.forall₂_map_right_iff]
    apply List.Forall₂.imp _ ((List.forall₂_and_left ts _).mpr ⟨hts, hd.connection axis⟩)
    rintro t b ⟨ht, hb⟩
    obtain ⟨rfl, rfl, -⟩ := muxNodes_of_build hb
    exact ⟨rfl, enumerates_connectionBox hg ht hb⟩
  rw [DeviceBoxes.entries, List.map_append]
  apply List.rel_append
  · rw [List.forall₂_map_left_iff, List.forall₂_map_right_iff]
    apply List.Forall₂.imp _ ((List.forall₂_and_left ts _).mpr ⟨hts, hd.switch⟩)
    rintro t b ⟨ht, hb⟩
    obtain ⟨rfl, -⟩ := sides_of_build hb
    exact ⟨rfl, enumerates_switchBox hg ht hb⟩
  · apply List.rel_append (hconnection .x) (hconnection .y)

/-- The entries of places are at these places, and list the nodes that have their multiplexers
there. -/
theorem map_fst_of_entryAt {ps : List Place} {es : List (Place × List NodeId)}
    (h : List.Forall₂ (EntryAt g grid) ps es) :
  es.map (·.1) = ps ∧ ∀ e ∈ es, Enumerates (OwnsId g grid e.1) e.2
  := by
  induction h with
  | nil => simp
  | @cons place entry ps es hentry _ ih =>
    obtain rfl := hentry.fst
    constructor
    · rw [List.map_cons, ih.1]
    · rw [List.forall_mem_cons]
      exact ⟨hentry.enumerates, ih.2⟩

/-- Over all boxes of a device, by however many threads they are built, no node is listed twice, and
a box lists the nodes that have their multiplexers in it. -/
theorem exists_build_owns (g : RoutingGraph) (grid : Grid) (threads : Nat)
    (hwidth : grid.width < wordLimit) (hheight : grid.height < wordLimit) :
  ∃ d, build g.buildLookup grid threads = .ok d
    ∧ (d.entries.flatMap (·.2)).Nodup
    ∧ ∀ place id, (∃ ids, (place, ids) ∈ d.entries ∧ id ∈ ids)
      ↔ ∃ n, g.node id = .ok n ∧ Owns g.buildLookup grid n place
  := by
  obtain ⟨hcolumns, hrows⟩ := columnCount_lt hwidth hheight
  obtain ⟨d, hd, -⟩ := exists_build hcolumns hrows threads (g := g.buildLookup)
  have hentries := (built_of_build hd).entries g.listed_buildLookup fun t => mem_tiles_iff.mp
  obtain ⟨hplaces, henumerates⟩ := map_fst_of_entryAt hentries
  have hnodup : (d.entries.map (·.1)).Nodup := by
    rw [hplaces]
    apply nodup_places (nodup_tiles _)
  refine ⟨d, hd, ?_, ?_⟩
  · have hall := Enumerates.flatMap (R := fun e => OwnsId g.buildLookup grid e.1) hnodup.of_map
      henumerates (by
        rintro e he e' he' id ⟨n, hn, howns⟩ ⟨n', hn', howns'⟩
        rw [hn] at hn'
        cases hn'
        apply List.inj_on_of_nodup_map hnodup he he' (howns.unique howns'))
    apply hall.nodup
  · intro place id
    constructor
    · rintro ⟨ids, hmem, hid⟩
      apply ((henumerates _ hmem).mem_iff id).mp hid
    · rintro ⟨n, hn, howns⟩
      have hplace := mem_places_of_owns howns
      rw [← hplaces] at hplace
      obtain ⟨⟨_, ids⟩, hmem, rfl⟩ := List.mem_map.mp hplace
      exact ⟨ids, hmem, ((henumerates _ hmem).mem_iff id).mpr ⟨n, hn, howns⟩⟩

/-- Two wires that cross, and a pin beside one of them. -/
def crossing : RoutingGraph where
  nodes := #[
    { kind := .channelX, low := ⟨1, 1⟩, high := ⟨2, 1⟩, ptc := 0, direction := some .increasing },
    { kind := .channelY, low := ⟨1, 1⟩, high := ⟨1, 2⟩, ptc := 0, direction := some .decreasing },
    { kind := .inPin, low := ⟨1, 2⟩, high := ⟨1, 2⟩, ptc := 0, side := some .bottom }]

/-- Each of the wires has its multiplexer in the switch box in front of the segment where it starts,
and the pin in the connection box of the segment below it. -/
theorem exists_build_crossing :
  ∃ d, build crossing.buildLookup ⟨3, 3⟩ 2 = .ok d ∧ (d.entries.flatMap (·.2)).Nodup
    ∧ (∃ ids, (.switch ⟨0, 1⟩, ids) ∈ d.entries ∧ 0 ∈ ids)
    ∧ (∃ ids, (.switch ⟨1, 2⟩, ids) ∈ d.entries ∧ 1 ∈ ids)
    ∧ ∃ ids, (.connection .x ⟨1, 1⟩, ids) ∈ d.entries ∧ 2 ∈ ids
  := by
  obtain ⟨d, hd, hnodup, howns⟩ :=
    exists_build_owns crossing ⟨3, 3⟩ 2 (by decide) (by decide)
  refine ⟨d, hd, hnodup, ?_, ?_, ?_⟩
  · apply (howns _ _).mpr
    refine ⟨_, rfl, Owns.wire .x rfl ?_ ?_ ?_⟩ <;> decide
  · apply (howns _ _).mpr
    refine ⟨_, rfl, Owns.wire .y rfl ?_ ?_ ?_⟩ <;> decide
  · apply (howns _ _).mpr
    refine ⟨_, rfl, Owns.pin .bottom .x ⟨1, 1⟩ rfl rfl (.bottom 1 1) ?_ ⟨0, _, rfl, rfl, ?_⟩⟩ <;>
      decide

end RoutingFabric.DeviceBoxes
