import Mathlib.Data.List.Nodup
import RoutingFabric.Proofs.Box.Build

/-!
# Boxes of all columns

However many threads build the boxes of a device, together they build every box of every tile once,
in the order of the tiles.
-/

namespace RoutingFabric

namespace DeviceBoxes

variable {g : RoutingGraph} {grid : Grid} {ts ts' : List Tile} {a b d : DeviceBoxes}

/-- The boxes are those of the tiles, in the order of the tiles. -/
structure Built (g : RoutingGraph) (grid : Grid) (ts : List Tile) (d : DeviceBoxes) : Prop where
  switch : List.Forall₂ (fun t box => SwitchBox.build g grid t = .ok box) ts d.switch.toList
  connection : ∀ axis, List.Forall₂ (fun t box => ConnectionBox.build g t axis = .ok box) ts
    (d.connection axis).toList

/-- The boxes of columns are those of their tiles. -/
theorem built_of_ofColumns {columns : Range} (h : ofColumns g grid columns = .ok d) :
  Built g grid (tiles grid columns) d
  := by
  obtain ⟨switch, hswitch, h⟩ := bind_eq_ok_iff.mp h
  obtain ⟨connectionX, hx, h⟩ := bind_eq_ok_iff.mp h
  obtain ⟨connectionY, hy, h⟩ := bind_eq_ok_iff.mp h
  cases pure_eq_ok_iff.mp h
  constructor
  case switch => apply mapM_eq_ok_iff.mp hswitch
  case connection =>
    intro axis
    cases axis with
    | x => apply mapM_eq_ok_iff.mp hx
    | y => apply mapM_eq_ok_iff.mp hy

/-- Boxes side by side are those of the tiles of both. -/
theorem Built.beside (ha : Built g grid ts a) (hb : Built g grid ts' b) :
  Built g grid (ts ++ ts') (a.beside b)
  := by
  constructor
  case switch =>
    rw [DeviceBoxes.beside, Array.toList_append]
    apply List.rel_append ha.switch hb.switch
  case connection =>
    intro axis
    have happend : ((a.beside b).connection axis).toList
        = (a.connection axis).toList ++ (b.connection axis).toList := by
      cases axis <;> apply Array.toList_append
    rw [happend]
    apply List.rel_append (ha.connection axis) (hb.connection axis)

/-- The boxes of many ranges of columns are those of the tiles of all. -/
theorem Built.foldl_beside {rs : List Range} {ds : List DeviceBoxes} (hd : Built g grid ts d)
    (hds : List.Forall₂ (fun r d => ofColumns g grid r = .ok d) rs ds) :
  Built g grid (ts ++ rs.flatMap (tiles grid)) (ds.foldl DeviceBoxes.beside d)
  := by
  induction hds generalizing ts d with
  | nil => simpa using hd
  | cons hr _ ih =>
    rw [List.flatMap_cons, ← List.append_assoc]
    apply ih (hd.beside (built_of_ofColumns hr))

/-- The threads together build all columns, in order. -/
theorem flatMap_toList_shards (grid : Grid) (threads : Nat) :
  (shards grid threads).flatMap Range.toList = Range.toList ⟨0, columnCount grid⟩
  := by
  rw [shards]
  split
  · apply List.flatMap_singleton
  · apply Range.flatMap_toList_slices

/-- The threads together build the boxes of all tiles. -/
theorem flatMap_tiles_shards (grid : Grid) (threads : Nat) :
  (shards grid threads).flatMap (tiles grid) = tiles grid ⟨0, columnCount grid⟩
  := by
  unfold tiles
  rw [← flatMap_toList_shards grid threads, List.flatMap_assoc]

/-- The boxes of a device are those of all its tiles, whatever the number of threads. -/
theorem built_of_build {threads : Nat} (h : build g grid threads = .ok d) :
  Built g grid (tiles grid ⟨0, columnCount grid⟩) d
  := by
  obtain ⟨ds, hds, h⟩ := bind_eq_ok_iff.mp h
  cases pure_eq_ok_iff.mp h
  have hempty : Built g grid [] { rows := rowCount grid } := by
    constructor
    · apply List.Forall₂.nil
    · intro axis
      cases axis <;> apply List.Forall₂.nil
  have hbuilt := hempty.foldl_beside (mapM_eq_ok_iff.mp hds)
  rw [List.nil_append, flatMap_tiles_shards] at hbuilt
  apply hbuilt

/-- The columns and rows of a grid whose sides fit a machine word can be counted. -/
theorem columnCount_lt (hwidth : grid.width < wordLimit) (hheight : grid.height < wordLimit) :
  columnCount grid < wordLimit ∧ rowCount grid < wordLimit
  := by
  have hword : 1 < wordLimit := by decide
  rw [columnCount, rowCount, Grid.lastX, Grid.lastY]
  omega

/-- The tiles of a device are those up to its last column and row. -/
theorem mem_tiles_iff {t : Tile} :
  t ∈ tiles grid ⟨0, columnCount grid⟩ ↔ t.x ≤ grid.lastX ∧ t.y ≤ grid.lastY
  := by
  simp only [tiles, Range.toList, Range.length, List.mem_flatMap, List.mem_map, List.mem_range,
    columnCount, rowCount, Nat.sub_zero, ← List.range_eq_range', Nat.lt_succ_iff]
  constructor
  · rintro ⟨x, hx, y, hy, rfl⟩
    exact ⟨hx, hy⟩
  · rintro ⟨hx, hy⟩
    exact ⟨t.x, hx, t.y, hy, rfl⟩

/-- No tile of a device is listed twice. -/
theorem nodup_tiles (columns : Range) : (tiles grid columns).Nodup := by
  apply List.nodup_flatMap.mpr
  constructor
  · rintro x -
    apply List.Nodup.map _ List.nodup_range
    intro y y' h
    injection h
  · apply List.Pairwise.imp _ (List.nodup_range' : columns.toList.Nodup)
    intro x x' hne t ht ht'
    obtain ⟨y, -, rfl⟩ := List.mem_map.mp ht
    obtain ⟨y', -, h⟩ := List.mem_map.mp ht'
    injection h with h
    apply hne h.symm

end DeviceBoxes

end RoutingFabric
