import Mathlib.Order.Bounds.Basic
import RoutingFabric.Proofs.RoutingGraph.Lookup

/-!
# Nodes by place

The nodes listed at a tile are all of the kind that are found there, each once, by their numbers
and by their ids where numbers are the same. A pin is looked up as the first of its number.

The same lists come about where each node is entered at its tiles, a wire at every tile that it
spans, and the lists are sorted afterwards.
-/

namespace RoutingFabric.RoutingGraph

/-- The id is that of a node of the kind that is found at the tile: of a wire that spans it, or of
another node with its low corner there. -/
def FoundAt (g : RoutingGraph) (kind : Kind) (t : Tile) (id : NodeId) : Prop :=
  ∃ n, g.nodes[id]? = some n ∧ n.kind = kind
    ∧ if kind.isWire then n.covers t = true else n.low = t

/-- A node comes before another: it has the smaller number, or the same and the smaller id. -/
def Before (g : RoutingGraph) (a b : NodeId) : Prop :=
  g.ptcOf a < g.ptcOf b ∨ g.ptcOf a = g.ptcOf b ∧ a < b

/-- The list holds the nodes of a kind that are found at a tile, each once, in order. -/
structure Lists (g : RoutingGraph) (kind : Kind) (t : Tile) (ids : List NodeId) : Prop where
  mem_iff : ∀ id, id ∈ ids ↔ g.FoundAt kind t id
  nodup : ids.Nodup
  sorted : ids.Pairwise g.Before

variable {g : RoutingGraph} {kind : Kind} {t : Tile} {id : NodeId} {ids : List NodeId}

/-! ### The order of nodes -/

/-- A node comes first if it has the smaller number, or the same and no larger id. -/
theorem comesFirst_iff {a b : Nat} :
  g.comesFirst a b = true ↔ g.ptcOf a < g.ptcOf b ∨ g.ptcOf a = g.ptcOf b ∧ a ≤ b
  := by
  rw [comesFirst, Bool.or_eq_true, Bool.and_eq_true, decide_eq_true_iff, decide_eq_true_iff,
    decide_eq_true_iff]

/-- A node is before another if it has the smaller number, or the same and the smaller id. -/
theorem before_iff {a b : Nat} :
  g.Before a b ↔ g.ptcOf a < g.ptcOf b ∨ g.ptcOf a = g.ptcOf b ∧ a < b
  := Iff.rfl

/-- The order by which nodes are sorted is transitive. -/
theorem comesFirst_trans (a b c : NodeId) (hab : g.comesFirst a b = true)
    (hbc : g.comesFirst b c = true) :
  g.comesFirst a c = true
  := by
  rw [comesFirst_iff] at hab hbc ⊢
  omega

/-- Of two nodes one comes first. -/
theorem comesFirst_total (a b : NodeId) : (g.comesFirst a b || g.comesFirst b a) = true := by
  rw [Bool.or_eq_true, comesFirst_iff, comesFirst_iff]
  omega

/-- Two different nodes do not both come first. -/
theorem comesFirst_antisymm {a b : Nat} (hab : g.comesFirst a b = true)
    (hba : g.comesFirst b a = true) :
  a = b
  := by
  rw [comesFirst_iff] at hab hba
  omega

/-- A node that comes first is before the other or is that one. -/
theorem before_of_comesFirst {a b : Nat} (h : g.comesFirst a b = true) (hne : a ≠ b) :
  g.Before a b
  := by
  rw [comesFirst_iff] at h
  rw [before_iff]
  omega

/-- Nodes that are sorted are in order. -/
theorem pairwise_mergeSort_comesFirst (g : RoutingGraph) (ids : List NodeId) :
  (ids.mergeSort g.comesFirst).Pairwise fun a b => g.comesFirst a b = true
  := List.pairwise_mergeSort comesFirst_trans comesFirst_total ids

/-- Choosing some of the nodes and sorting them may be done in either order. -/
theorem mergeSort_filter (ids : List NodeId) (p : NodeId → Bool) :
  (ids.filter p).mergeSort g.comesFirst = (ids.mergeSort g.comesFirst).filter p
  := by
  have hsorted := g.pairwise_mergeSort_comesFirst
  have hperm := ((ids.filter p).mergeSort_perm g.comesFirst).trans
    ((ids.mergeSort_perm g.comesFirst).symm.filter p)
  apply hperm.eq_of_pairwise _ (hsorted _) ((hsorted ids).filter p)
  rintro a b - - hab hba
  apply comesFirst_antisymm hab hba

/-! ### Lists of nodes -/

/-- What is found at a tile is what the list of the tile is made of. -/
theorem foundAt_iff : g.FoundAt kind t id ↔ g.isAt kind t id = true := by
  rw [isAt_iff]
  apply exists_congr
  intro n
  rw [node, entry_eq_ok_iff]
  apply and_congr_right
  intro _
  rw [Node.isAt, Bool.and_eq_true, decide_eq_true_iff]
  apply and_congr_right
  intro _
  split
  · rfl
  · rw [decide_eq_true_iff]

/-- The nodes listed at a tile are those found there, each once, in order. -/
theorem lists_nodesAt (g : RoutingGraph) (kind : Kind) (t : Tile) :
  g.Lists kind t (g.buildLookup.nodesAt kind t)
  := by
  have hlisted := listed_buildLookup g
  have hnodup : (g.buildLookup.nodesAt kind t).Nodup := hlisted.nodup_nodesAt
  constructor
  case mem_iff =>
    intro id
    rw [hlisted.mem_nodesAt_iff, foundAt_iff, isAt_iff]
    rfl
  case nodup => apply hnodup
  case sorted =>
    have hsorted := (g.pairwise_mergeSort_comesFirst g.ids).filter (g.isAt kind t)
    apply hsorted.imp₂ _ hnodup
    intro a b hab hne
    apply before_of_comesFirst hab hne

/-- In a list in order, the first node of a number is the one of the least id. -/
theorem Lists.find?_eq_some_iff (h : g.Lists kind t ids) {pin : Nat} :
  ids.find? (fun i => g.ptcOf i = pin) = some id
    ↔ IsLeast {i | g.FoundAt kind t i ∧ g.ptcOf i = pin} id
  := by
  have hleast : ∀ i, ids.find? (fun i => g.ptcOf i = pin) = some i →
      IsLeast {i | g.FoundAt kind t i ∧ g.ptcOf i = pin} i := by
    intro i hi
    obtain ⟨hpin, before, after, rfl, hbefore⟩ := List.find?_eq_some_iff_append.mp hi
    rw [decide_eq_true_iff] at hpin
    constructor
    · exact ⟨(h.mem_iff i).mp (by simp), hpin⟩
    · rintro j ⟨hj, hjpin⟩
      rcases List.mem_append.mp ((h.mem_iff j).mpr hj) with hmem | hmem
      · simpa [hjpin] using hbefore j hmem
      · rcases List.mem_cons.mp hmem with rfl | hmem
        · apply le_refl
        · have hsorted := (List.pairwise_append.mp h.sorted).2.1
          have hij := (List.pairwise_cons.mp hsorted).1 j hmem
          rw [before_iff] at hij
          obtain ⟨-, hle⟩ := hij.resolve_left (by omega)
          apply Nat.le_of_lt hle
  constructor
  · apply hleast
  · intro hid
    cases hfound : ids.find? (fun i => g.ptcOf i = pin) with
    | some i => rw [(hleast i hfound).unique hid]
    | none =>
      have hnone := List.find?_eq_none.mp hfound id ((h.mem_iff id).mpr hid.1.1)
      cases hnone (decide_eq_true hid.1.2)

/-- In a list in order no node of a number is met exactly if there is none. -/
theorem Lists.find?_eq_none_iff (h : g.Lists kind t ids) {pin : Nat} :
  ids.find? (fun i => g.ptcOf i = pin) = none ↔ ∀ i, g.FoundAt kind t i → g.ptcOf i ≠ pin
  := by
  rw [List.find?_eq_none]
  apply forall_congr'
  intro i
  rw [h.mem_iff, decide_eq_true_iff]

/-! ### Nodes entered tile by tile -/

/-- The tiles from a low corner to a high one, column by column. -/
def tilesBetween (low high : Tile) : List Tile :=
  (List.range' low.x (high.x + 1 - low.x)).flatMap fun x =>
    (List.range' low.y (high.y + 1 - low.y)).map fun y => ⟨x, y⟩

/-- The tiles at which a node is entered. -/
def Node.places (n : Node) : List Tile :=
  if n.kind.isWire then tilesBetween n.low n.high else [n.low]

/-- Lists of nodes, one for each kind and tile. -/
def Directory : Type := Kind → Tile → List NodeId

/-- The lists without nodes. -/
def Directory.empty : Directory := fun _ _ => []

/-- A node of a kind is entered at a tile, after those entered before. -/
def Directory.enter (d : Directory) (kind : Kind) (id : NodeId) (t : Tile) : Directory :=
  fun kind' t' => if kind' = kind ∧ t' = t then d kind' t' ++ [id] else d kind' t'

/-- A node is entered at its tiles. -/
def Directory.add (d : Directory) (n : Node) (id : NodeId) : Directory :=
  n.places.foldl (fun d t => d.enter n.kind id t) d

/-- The nodes of a graph, entered in the order of their ids. -/
def entered (g : RoutingGraph) : Directory :=
  g.nodes.toList.zipIdx.foldl (fun d x => d.add x.1 x.2) .empty

/-- The directory of a graph: all nodes are entered, and the lists are sorted afterwards. -/
def directory (g : RoutingGraph) : Directory :=
  fun kind t => (g.entered kind t).mergeSort g.comesFirst

/-- The tiles between two corners. -/
theorem mem_tilesBetween_iff {low high : Tile} :
  t ∈ tilesBetween low high
    ↔ (low.x ≤ t.x ∧ t.x ≤ high.x) ∧ low.y ≤ t.y ∧ t.y ≤ high.y
  := by
  simp only [tilesBetween, List.mem_flatMap, List.mem_map, List.mem_range'_1]
  constructor
  · rintro ⟨x, hx, y, hy, rfl⟩
    dsimp only
    omega
  · intro h
    exact ⟨t.x, by omega, t.y, by omega, rfl⟩

/-- No tile between two corners comes twice. -/
theorem nodup_tilesBetween (low high : Tile) : (tilesBetween low high).Nodup := by
  apply List.nodup_flatMap.mpr
  constructor
  · rintro x -
    apply List.Nodup.map _ List.nodup_range'
    rintro y y' ⟨⟩
    rfl
  · apply List.Pairwise.imp _ List.nodup_range'
    intro x x' hne u hu hu'
    obtain ⟨y, -, rfl⟩ := List.mem_map.mp hu
    obtain ⟨y', -, h⟩ := List.mem_map.mp hu'
    injection h with h
    apply hne h.symm

/-- A node is entered at the tiles where it is found. -/
theorem Node.mem_places_iff {n : Node} : t ∈ n.places ↔ n.isAt n.kind t = true := by
  rw [places, isAt]
  split
  · simp [mem_tilesBetween_iff, covers, and_assoc]
  · simp [eq_comm]

/-- A node is entered at a tile once. -/
theorem Node.nodup_places (n : Node) : n.places.Nodup := by
  rw [places]
  split
  · apply nodup_tilesBetween
  · apply List.nodup_singleton

/-- Entering a node at different tiles puts it at the end of the list of each of them. -/
theorem Directory.foldl_enter (d : Directory) (kind kind' : Kind) (id : NodeId) {ts : List Tile}
    (hts : ts.Nodup) :
  ts.foldl (fun d t => d.enter kind id t) d kind' t
    = d kind' t ++ if kind' = kind ∧ t ∈ ts then [id] else []
  := by
  induction ts generalizing d with
  | nil => simp
  | cons t' ts ih =>
    obtain ⟨hfresh, hts⟩ := List.nodup_cons.mp hts
    rw [List.foldl_cons, ih _ hts, enter]
    by_cases hkind : kind' = kind
    · rcases eq_or_ne t t' with rfl | hne
      · simp [hkind, hfresh]
      · simp [hkind, hne]
    · simp [hkind]

/-- Adding a node puts it at the end of the lists where it is found. -/
theorem Directory.add_apply (d : Directory) (n : Node) (id : NodeId) :
  d.add n id kind t = d kind t ++ if n.isAt kind t then [id] else []
  := by
  rw [add, foldl_enter d n.kind kind id n.nodup_places]
  congr 2
  rw [eq_iff_iff, n.mem_places_iff]
  constructor
  · rintro ⟨rfl, hat⟩
    apply hat
  · intro hat
    have hkind := hat
    rw [Node.isAt, Bool.and_eq_true, decide_eq_true_iff] at hkind
    obtain ⟨rfl, -⟩ := hkind
    exact ⟨rfl, hat⟩

/-- Adding nodes puts those found at a tile at the end of its list, in order. -/
theorem Directory.foldl_add (d : Directory) (xs : List (Node × NodeId)) :
  xs.foldl (fun d x => Directory.add d x.1 x.2) d kind t
    = d kind t ++ (xs.filter fun x => x.1.isAt kind t).map (·.2)
  := by
  induction xs generalizing d with
  | nil => simp
  | cons x xs ih =>
    rw [List.foldl_cons, ih, add_apply, List.filter_cons, List.append_assoc]
    split
    · rfl
    · rfl

/-- The nodes entered at a tile are those found there, in the order of their ids. -/
theorem entered_eq : g.entered kind t = g.ids.filter (g.isAt kind t) := by
  have hids : g.ids = g.nodes.toList.zipIdx.map (·.2) := by
    rw [ids, size, List.range_eq_range', ← Array.length_toList, List.zipIdx_map_snd]
  rw [entered, Directory.foldl_add, Directory.empty, List.nil_append, hids, List.filter_map]
  congr 1
  apply List.filter_congr
  rintro ⟨n, i⟩ hmem
  have hn := List.mem_zipIdx_iff_getElem?.mp hmem
  rw [Array.getElem?_toList] at hn
  simp only [Function.comp_apply, isAt, hn]

/-- The directory lists the nodes that are looked up. -/
theorem directory_eq_nodesAt (g : RoutingGraph) :
  g.directory kind t = g.buildLookup.nodesAt kind t
  := by
  calc g.directory kind t
    _ = (g.entered kind t).mergeSort g.comesFirst := rfl
    _ = (g.ids.filter (g.isAt kind t)).mergeSort g.comesFirst := by rw [entered_eq]
    _ = g.buildLookup.lookup.filter (g.isAt kind t) := mergeSort_filter g.ids (g.isAt kind t)

/-- Whatever was looked up before, once the look-up is built the nodes listed at a tile are all
nodes of the kind that are found there, each once, by numbers and ids. They are the ones that
entering all nodes tile by tile gives. Looking up a pin finds the node of the least id among those
of its number, and none exactly if there is none. -/
theorem lookup_exact (g : RoutingGraph) (kind : Kind) (t : Tile) :
  g.Lists kind t (g.buildLookup.nodesAt kind t)
    ∧ g.directory kind t = g.buildLookup.nodesAt kind t
    ∧ ∀ pin,
      (∀ id, g.buildLookup.findPin kind t pin = some id
        ↔ IsLeast {i | g.FoundAt kind t i ∧ g.ptcOf i = pin} id)
      ∧ (g.buildLookup.findPin kind t pin = none
        ↔ ∀ i, g.FoundAt kind t i → g.ptcOf i ≠ pin)
  := by
  have hlists := lists_nodesAt g kind t
  refine ⟨hlists, directory_eq_nodesAt g, ?_⟩
  intro pin
  constructor
  · intro id
    apply hlists.find?_eq_some_iff
  · apply hlists.find?_eq_none_iff

end RoutingFabric.RoutingGraph
