import Mathlib.Algebra.Ring.Nat
import RoutingFabric.Proofs.Box.Multiplexers

/-!
# Boxes and the threads that build them

The boxes of a device do not depend on the number of threads that build them: there is one box of
each kind for every tile of the grid, and it is found at the coordinates that it was built for.
-/

namespace RoutingFabric.DeviceBoxes

open Box

variable {g : RoutingGraph} {grid : Grid} {ts : List Tile} {a b d : DeviceBoxes} {t : Tile}

/-! ### Columns and rows -/

/-- The threads together build as many columns as there are. -/
theorem sum_length_shards (grid : Grid) (threads : Nat) :
  ((shards grid threads).map Range.length).sum = columnCount grid
  := by
  have hlength := congrArg List.length (flatMap_toList_shards grid threads)
  rw [List.length_flatMap] at hlength
  simp only [Range.toList, List.length_range'] at hlength
  apply hlength

/-- Columns have the length of their range, and the rows of the grid. -/
theorem columns_of_ofColumns {columns : Range} (h : ofColumns g grid columns = .ok d) :
  d.columns = columns.length ∧ d.rows = rowCount grid
  := by
  obtain ⟨switch, -, h⟩ := bind_eq_ok_iff.mp h
  obtain ⟨connectionX, -, h⟩ := bind_eq_ok_iff.mp h
  obtain ⟨connectionY, -, h⟩ := bind_eq_ok_iff.mp h
  cases pure_eq_ok_iff.mp h
  exact ⟨rfl, rfl⟩

/-- Columns side by side add up, and keep their rows. -/
theorem columns_foldl_beside {rs : List Range} {ds : List DeviceBoxes}
    (hds : List.Forall₂ (fun r d => ofColumns g grid r = .ok d) rs ds) (d : DeviceBoxes) :
  (ds.foldl DeviceBoxes.beside d).columns = d.columns + (rs.map Range.length).sum
    ∧ (ds.foldl DeviceBoxes.beside d).rows = d.rows
  := by
  induction hds generalizing d with
  | nil => exact ⟨rfl, rfl⟩
  | @cons r d' rs ds hr _ ih =>
    obtain ⟨hcolumns, hrows⟩ := ih (d.beside d')
    rw [List.foldl_cons, hcolumns, hrows, List.map_cons, List.sum_cons, ← Nat.add_assoc,
      ← (columns_of_ofColumns hr).1]
    exact ⟨rfl, rfl⟩

/-- A device has the columns and rows of its grid, whatever the number of threads. -/
theorem columns_of_build {threads : Nat} (h : build g grid threads = .ok d) :
  d.columns = columnCount grid ∧ d.rows = rowCount grid
  := by
  obtain ⟨ds, hds, h⟩ := bind_eq_ok_iff.mp h
  cases pure_eq_ok_iff.mp h
  obtain ⟨hcolumns, hrows⟩ := columns_foldl_beside (mapM_eq_ok_iff.mp hds) { rows := rowCount grid }
  rw [hcolumns, hrows, sum_length_shards]
  exact ⟨Nat.zero_add _, rfl⟩

/-! ### One box for each tile -/

/-- What is built for each item of a list is determined by the list. -/
theorem eq_of_forall₂_ok {α β : Type} {build : α → Outcome β} {xs : List α} {ys zs : List β}
    (hys : List.Forall₂ (fun x y => build x = .ok y) xs ys)
    (hzs : List.Forall₂ (fun x y => build x = .ok y) xs zs) :
  ys = zs
  := by
  have h := (mapM_eq_ok_iff.mpr hys).symm.trans (mapM_eq_ok_iff.mpr hzs)
  injection h

/-- The boxes of tiles are determined by the tiles. -/
theorem Built.eq (ha : Built g grid ts a) (hb : Built g grid ts b)
    (hcolumns : a.columns = b.columns) (hrows : a.rows = b.rows) :
  a = b
  := by
  have hswitch := Array.toList_inj.mp (eq_of_forall₂_ok ha.switch hb.switch)
  have hx := Array.toList_inj.mp (eq_of_forall₂_ok (ha.connection .x) (hb.connection .x))
  have hy := Array.toList_inj.mp (eq_of_forall₂_ok (ha.connection .y) (hb.connection .y))
  cases a
  cases b
  cases hcolumns
  cases hrows
  cases hswitch
  cases hx
  cases hy
  rfl

/-- The numbers of threads make no difference to what is built. -/
theorem eq_of_build {threads threads' : Nat} (ha : build g grid threads = .ok a)
    (hb : build g grid threads' = .ok b) :
  a = b
  := by
  obtain ⟨hacolumns, harows⟩ := columns_of_build ha
  obtain ⟨hbcolumns, hbrows⟩ := columns_of_build hb
  apply (built_of_build ha).eq (built_of_build hb)
  · rw [hacolumns, hbcolumns]
  · rw [harows, hbrows]

/-! ### Boxes at their coordinates -/

/-- Columns hold as many tiles as they are long, for each row. -/
theorem length_tiles (grid : Grid) (columns : Range) :
  (tiles grid columns).length = columns.length * rowCount grid
  := by
  rw [tiles, List.length_flatMap]
  simp only [List.length_map, List.length_range, List.map_const', List.sum_replicate_nat,
    Range.toList, List.length_range']

/-- The tiles of columns stand column by column, and in a column from the bottom up. -/
theorem getElem?_tiles (start : Nat) {count x : Nat} (hx : x < count) (hy : t.y < rowCount grid)
    (ht : t.x = start + x) :
  (tiles grid ⟨start, start + count⟩)[x * rowCount grid + t.y]? = some t
  := by
  have hcons : ∀ start count, tiles grid ⟨start, start + (count + 1)⟩
      = (List.range (rowCount grid)).map (⟨start, ·⟩)
        ++ tiles grid ⟨start + 1, start + 1 + count⟩ := by
    intro start count
    simp only [tiles, Range.toList, Range.length, Nat.add_sub_cancel_left, List.range'_succ,
      List.flatMap_cons]
  induction x generalizing start count with
  | zero =>
    obtain ⟨count, rfl⟩ := Nat.exists_eq_succ_of_ne_zero (Nat.ne_of_gt hx)
    rw [hcons, Nat.zero_mul, Nat.zero_add, List.getElem?_append_left (by simpa using hy),
      List.getElem?_map, List.getElem?_range hy]
    cases t
    cases ht
    rfl
  | succ x ih =>
    obtain ⟨count, rfl⟩ := Nat.exists_eq_succ_of_ne_zero (Nat.ne_zero_of_lt hx)
    have hindex : (x + 1) * rowCount grid + t.y - rowCount grid = x * rowCount grid + t.y := by
      rw [Nat.succ_mul]
      omega
    have hle : rowCount grid ≤ (x + 1) * rowCount grid + t.y := by
      rw [Nat.succ_mul]
      omega
    rw [hcons, List.getElem?_append_right (by simpa using hle), List.length_map, List.length_range,
      hindex]
    apply ih (start + 1) (Nat.lt_of_succ_lt_succ hx)
    omega

/-- The place of the boxes of a tile is that of the tile among all tiles of the grid. -/
theorem exists_indexOf? (hcolumns : d.columns = columnCount grid) (hrows : d.rows = rowCount grid)
    (ht : grid.Holds t) :
  ∃ i, d.indexOf? t = some i ∧ (tiles grid ⟨0, columnCount grid⟩)[i]? = some t
  := by
  have hx : t.x < columnCount grid := Nat.lt_succ_of_le ht.1
  have hy : t.y < rowCount grid := Nat.lt_succ_of_le ht.2
  use t.x * rowCount grid + t.y
  constructor
  · rw [indexOf?, hcolumns, hrows, if_pos ⟨hx, hy⟩]
  · have h := getElem?_tiles 0 hx hy (Nat.zero_add t.x).symm
    rwa [Nat.zero_add] at h

/-- A tile outside of the grid has no place. -/
theorem indexOf?_eq_none (hcolumns : d.columns = columnCount grid) (hrows : d.rows = rowCount grid)
    (ht : ¬ grid.Holds t) :
  d.indexOf? t = none
  := by
  rw [indexOf?, hcolumns, hrows, if_neg]
  rintro ⟨hx, hy⟩
  apply ht
  exact ⟨Nat.le_of_lt_succ hx, Nat.le_of_lt_succ hy⟩

/-- A device is the same by whatever number of threads it is built. It has one box of each kind for
every tile of the grid, which is found there and is the one built for these coordinates, and no box
is found outside of the grid. -/
theorem exists_build_of_threads (g : RoutingGraph) (grid : Grid) (hwidth : grid.width < wordLimit)
    (hheight : grid.height < wordLimit) :
  ∃ d, (∀ threads, build g grid threads = .ok d)
    ∧ d.columns = grid.lastX + 1 ∧ d.rows = grid.lastY + 1
    ∧ d.switch.size = (grid.lastX + 1) * (grid.lastY + 1)
    ∧ (∀ axis, (d.connection axis).size = (grid.lastX + 1) * (grid.lastY + 1))
    ∧ (∀ t, grid.Holds t → ∃ b, SwitchBox.build g grid t = .ok b ∧ b.place = t
      ∧ d.switchAt t = .ok (some b))
    ∧ (∀ t axis, grid.Holds t → ∃ b, ConnectionBox.build g t axis = .ok b
      ∧ b.place = t ∧ b.axis = axis ∧ d.connectionAt t axis = .ok (some b))
    ∧ ∀ t, ¬ grid.Holds t → d.switchAt t = .ok none ∧ ∀ axis, d.connectionAt t axis = .ok none
  := by
  obtain ⟨hcolumns, hrows⟩ := columnCount_lt hwidth hheight
  obtain ⟨d, hd, -⟩ := exists_build hcolumns hrows 1 (g := g)
  have hbuilt := built_of_build hd
  obtain ⟨hdcolumns, hdrows⟩ := columns_of_build hd
  refine ⟨d, ?_, hdcolumns, hdrows, ?_, ?_, ?_, ?_, ?_⟩
  · intro threads
    obtain ⟨d', hd', -⟩ := exists_build hcolumns hrows threads (g := g)
    rw [hd', eq_of_build hd' hd]
  · rw [← Array.length_toList, ← hbuilt.switch.length_eq, length_tiles]
    rfl
  · intro axis
    rw [← Array.length_toList, ← (hbuilt.connection axis).length_eq, length_tiles]
    rfl
  · intro t ht
    obtain ⟨i, hi, hti⟩ := exists_indexOf? hdcolumns hdrows ht
    obtain ⟨b, hb, hbuild⟩ := exists_getElem?_of_forall₂ hbuilt.switch hti
    rw [Array.getElem?_toList] at hb
    refine ⟨b, hbuild, (Box.sides_of_build hbuild).1, ?_⟩
    simp only [switchAt, hi, entry_eq_ok_iff.mpr hb, ok_bind]
    rfl
  · intro t axis ht
    obtain ⟨i, hi, hti⟩ := exists_indexOf? hdcolumns hdrows ht
    obtain ⟨b, hb, hbuild⟩ := exists_getElem?_of_forall₂ (hbuilt.connection axis) hti
    rw [Array.getElem?_toList] at hb
    obtain ⟨hplace, haxis, -⟩ := Box.muxNodes_of_build hbuild
    refine ⟨b, hbuild, hplace, haxis, ?_⟩
    simp only [connectionAt, hi, entry_eq_ok_iff.mpr hb, ok_bind]
    rfl
  · intro t ht
    have hnone := indexOf?_eq_none hdcolumns hdrows ht
    constructor
    · rw [switchAt, hnone]
    · intro axis
      rw [connectionAt, hnone]

/-- By three threads as by one, the wire that runs down has its multiplexer in the box above it, and
the box next to the last column is not there. -/
theorem exists_build_crossing_of_threads :
  ∃ d b, build crossing.buildLookup ⟨3, 3⟩ 1 = .ok d ∧ build crossing.buildLookup ⟨3, 3⟩ 3 = .ok d
    ∧ d.switchAt ⟨1, 2⟩ = .ok (some b) ∧ b.muxNodes = [1] ∧ d.switchAt ⟨3, 0⟩ = .ok none
  := by
  obtain ⟨d, hd, -, -, -, -, hswitch, -, hnone⟩ :=
    exists_build_of_threads crossing.buildLookup ⟨3, 3⟩ (by decide) (by decide)
  obtain ⟨b, hb, -, hat⟩ := hswitch ⟨1, 2⟩ (by decide)
  refine ⟨d, b, hd 1, hd 3, hat, ?_, (hnone ⟨3, 0⟩ (by decide)).1⟩
  have hsorted : crossing.buildLookup = { crossing with lookup := crossing.ids } :=
    congrArg (RoutingGraph.mk _ _) (List.mergeSort_of_pairwise (by decide))
  have hbox : (SwitchBox.build crossing.buildLookup ⟨3, 3⟩ ⟨1, 2⟩).map SwitchBox.muxNodes
      = .ok [1] := by
    rw [hsorted]
    rfl
  rw [hb] at hbox
  injection hbox

end RoutingFabric.DeviceBoxes
