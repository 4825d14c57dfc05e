import RoutingFabric.Proofs.Bitstream.Chain
import RoutingFabric.Proofs.Box.Columns
import RoutingFabric.Proofs.Box.Owners
import RoutingFabric.Proofs.Text

/-!
# Names of boxes

The name of a routing box tells its sort and its tile. So the boxes of a device have distinct names.
-/

namespace RoutingFabric

open Text

namespace Box

/-- The name of a box of a sort at a tile. -/
def nameOf (sort : String) (t : Tile) : String :=
  sort ++ "_" ++ decimal t.x ++ "_" ++ decimal t.y

/-- The sorts of boxes, by what their names start with. -/
def sorts : List String := ["sb", "cbx", "cby"]

/-- What the names of connection boxes along an axis start with. -/
def sortAlong : Axis → String
  | .x => "cbx"
  | .y => "cby"

/-- A box may have the name. -/
def IsName (name : String) : Prop := ∃ sort ∈ sorts, ∃ t, name = nameOf sort t

/-- The name of a box tells its sort and its tile. -/
theorem nameOf_inj {sort sort' : String} {t t' : Tile} :
  nameOf sort t = nameOf sort' t' ↔ sort = sort' ∧ t = t'
  := by
  have hchars : ∀ (sort : String) (t : Tile), (nameOf sort t).toList
      = (sort.toList ++ '_' :: (decimal t.x).toList) ++ '_' :: (decimal t.y).toList := by
    intro sort t
    simp [nameOf]
  have hdigits : ∀ n : Nat, '_' ∉ (decimal n).toList := not_mem_decimal (by decide)
  obtain ⟨x, y⟩ := t
  obtain ⟨x', y'⟩ := t'
  rw [← String.toList_inj, hchars, hchars, append_cons_inj (hdigits _) (hdigits _),
    append_cons_inj (hdigits _) (hdigits _), String.toList_inj, String.toList_inj, decimal_inj,
    String.toList_inj, decimal_inj, Tile.mk.injEq, and_assoc]

/-- The name of a box has no slash. -/
theorem not_mem_of_isName {name : String} (h : IsName name) : '/' ∉ name.toList := by
  obtain ⟨sort, hsort, t, rfl⟩ := h
  have hdigits : ∀ n : Nat, '/' ∉ (decimal n).toList := not_mem_decimal (by decide)
  have hplain : '/' ∉ sort.toList := by
    revert sort
    decide
  simp [nameOf, hdigits, hplain]

/-- The name of a box has an underscore. -/
theorem mem_of_isName {name : String} (h : IsName name) : '_' ∈ name.toList := by
  obtain ⟨sort, -, t, rfl⟩ := h
  simp [nameOf]

end Box

namespace DeviceBoxes

open Box

variable {g : RoutingGraph} {grid : Grid} {d d' : DeviceBoxes} {threads : Nat}

/-- The names of the boxes, in the order of the chain. -/
def names (d : DeviceBoxes) : List String :=
  d.switch.toList.map (·.name) ++ (d.connectionX.toList ++ d.connectionY.toList).map (·.name)

/-- The boxes of the chain have these names. -/
theorem map_name_links (switchMux connectionMux : Mux.Circuit) (d : DeviceBoxes) :
  (d.links switchMux connectionMux).map (·.name) = d.names
  := by simp [links, names, SwitchBox.link, ConnectionBox.link, Function.comp_def]

/-- The names of boxes do not depend on their stretches of the chain. -/
theorem names_eq_of_unplaced (h : d.unplaced = d'.unplaced) : d.names = d'.names := by
  have hnames : ∀ d : DeviceBoxes, d.unplaced.names = d.names := by
    intro d
    simp [names, unplaced, SwitchBox.name, ConnectionBox.name, Function.comp_def]
  rw [← hnames d, h, hnames d']

/-- The boxes of a device have the names of their sorts and tiles. -/
theorem names_of_build (h : build g grid threads = .ok d) :
  d.names = sorts.flatMap fun sort => (tiles grid ⟨0, columnCount grid⟩).map (nameOf sort)
  := by
  have hbuilt := built_of_build h
  have hswitch : d.switch.toList.map (·.name)
      = (tiles grid ⟨0, columnCount grid⟩).map (nameOf "sb") := by
    apply map_eq_of_forall₂ hbuilt.switch
    intro t b hb
    rw [SwitchBox.name, (sides_of_build hb).1]
    rfl
  have hconnection : ∀ axis, (d.connection axis).toList.map (·.name)
      = (tiles grid ⟨0, columnCount grid⟩).map (nameOf (sortAlong axis)) := by
    intro axis
    apply map_eq_of_forall₂ (hbuilt.connection axis)
    intro t b hb
    obtain ⟨hplace, haxis, -⟩ := muxNodes_of_build hb
    rw [ConnectionBox.name, hplace, haxis]
    cases axis <;> rfl
  have hx := hconnection .x
  have hy := hconnection .y
  dsimp only [connection] at hx hy
  rw [names, List.map_append, hswitch, hx, hy]
  simp [sorts, sortAlong]

/-- The boxes of a device have distinct names. -/
theorem nodup_names (h : build g grid threads = .ok d) : d.names.Nodup := by
  rw [names_of_build h]
  apply List.nodup_flatMap.mpr
  constructor
  · rintro sort -
    apply List.Nodup.map _ (nodup_tiles _)
    intro t t' heq
    apply (nameOf_inj.mp heq).2
  · apply List.Pairwise.imp _ (by decide : sorts.Nodup)
    intro sort sort' hne name hname hname'
    obtain ⟨t, -, rfl⟩ := List.mem_map.mp hname
    obtain ⟨t', -, heq⟩ := List.mem_map.mp hname'
    apply hne (nameOf_inj.mp heq).1.symm

/-- The names of the boxes of a device are names of boxes. -/
theorem isName_of_mem_names (h : build g grid threads = .ok d) :
  ∀ name ∈ d.names, IsName name
  := by
  intro name hname
  rw [names_of_build h] at hname
  obtain ⟨sort, hsort, hname⟩ := List.mem_flatMap.mp hname
  obtain ⟨t, -, rfl⟩ := List.mem_map.mp hname
  exact ⟨sort, hsort, t, rfl⟩

end DeviceBoxes

end RoutingFabric
