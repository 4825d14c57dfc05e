import Mathlib.Algebra.Order.BigOperators.Group.Finset
import Mathlib.Algebra.Order.Ring.Nat
import RoutingFabric.Proofs.Cluster.Invariant

/-!
# The walk has enough moves

A pin that has not been dealt with has to wait and to be done, and each of the edges that may drive
it may be skipped. A pin on the stack has to be done, and may skip the edges it has left. Every move
takes from what is left to do, so the moves that the selection allows always suffice.
-/

namespace RoutingFabric.Cluster

variable (b : BlockGraph) (c : Cluster)

/-- The number of edges that may drive a pin in the modes in use. -/
def inputCount (id : PinId) : Nat :=
  match b.activeInputs c.modes id with
  | .ok edges => edges.length
  | .error _ => 0

/-- The number of moves a pin may take, all in all. -/
def pinWork (id : PinId) : Nat := 2 + inputCount b c id

/-- The number of moves a pin on the stack may still take. -/
def Frame.work (f : Frame) : Nat := 1 + (f.inputs.length - f.cursor)

/-- The pins that have not been dealt with. -/
def Walk.unvisited (w : Walk) : Finset PinId :=
  (Finset.range b.pins.size).filter fun id => w.visit[id]? = some .unvisited

/-- The number of moves the walk may still take. -/
def Walk.work (w : Walk) : Nat :=
  ∑ id ∈ w.unvisited b, pinWork b c id + (w.stack.map Frame.work).sum

/-- Twice the number of pins, and the number of edges that may drive them. -/
def stepBound : Nat := 2 * b.pins.size + ∑ id ∈ Finset.range b.pins.size, inputCount b c id

variable {b} {g : RoutingGraph} {t : NetTable} {c}

/-- The sum of a list is the sum over its places. -/
theorem sum_range_getElem? (xs : List Nat) :
  ∑ i ∈ Finset.range xs.length, (xs[i]?).getD 0 = xs.sum
  := by
  induction xs with
  | nil => rfl
  | cons x xs ih =>
    rw [List.length_cons, Finset.sum_range_succ', List.sum_cons, ← ih]
    simp [Nat.add_comm]

/-- As many moves are allowed as there are pins, twice, and edges that reach them. -/
theorem moveBound_eq (b : BlockGraph) :
  moveBound b = 2 * b.pins.size + (b.pins.toList.map (·.inputs.length)).sum
  := by
  rw [moveBound, List.sum_eq_foldr, List.foldr_map]

/-- A pin has no more edges that may drive it than edges that reach it. -/
theorem inputCount_le (b : BlockGraph) (c : Cluster) (id : PinId) :
  inputCount b c id ≤ (b.pins[id]?.map (·.inputs.length)).getD 0
  := by
  rw [inputCount]
  split
  · rename_i edges h
    obtain ⟨p, hp, hedges⟩ := bind_eq_ok_iff.mp h
    rw [entry_eq_ok_iff.mp hp]
    apply length_le_of_filterMapM_eq_ok hedges
  · apply Nat.zero_le

/-- More moves are allowed than edges that may drive pins call for. -/
theorem stepBound_le_moveBound (b : BlockGraph) (c : Cluster) : stepBound b c ≤ moveBound b := by
  have hsum := sum_range_getElem? (b.pins.toList.map (·.inputs.length))
  simp only [List.length_map, Array.length_toList, List.getElem?_map,
    Array.getElem?_toList] at hsum
  rw [stepBound, moveBound_eq, ← hsum]
  apply Nat.add_le_add_left
  apply Finset.sum_le_sum
  rintro id -
  apply inputCount_le

/-- Before the walk there is as much to do as there are pins, twice, and edges that may drive them.
-/
theorem work_start : (Walk.start b.pins.size).work b c = stepBound b c := by
  have hall : (Walk.start b.pins.size).unvisited b = Finset.range b.pins.size := by
    apply Finset.filter_true_of_mem
    intro id hid
    simpa [Walk.start, Array.getElem?_replicate] using hid
  rw [Walk.work, hall, stepBound]
  simp [pinWork, Walk.start, Finset.sum_add_distrib, Nat.mul_comm]

/-- The edges that a pin on the stack holds are counted. -/
theorem inputCount_eq_length {id : PinId} {inputs : List Input}
    (h : inputsOf b c id = .ok inputs) :
  inputCount b c id = inputs.length
  := by
  obtain ⟨edges, hedges, h⟩ := bind_eq_ok_iff.mp h
  rw [inputCount, hedges, length_of_mapM_eq_ok h]

/-- Putting a pin on the stack takes from what is left to do. -/
theorem work_push {w w' : Walk} {id : PinId} (hw : w.Inv b g c)
    (hid : w.visit[id]? = some .unvisited) (h : w.push b c id = .ok w') :
  w'.work b c + 1 ≤ w.work b c
  := by
  have hvisit := visit_of_push hid h
  have hpins : w'.unvisited b = (w.unvisited b).erase id := by
    ext q
    simp only [Walk.unvisited, Finset.mem_filter, Finset.mem_erase, hvisit]
    by_cases hq : q = id <;> simp [hq]
  obtain ⟨inputs, hlt, hinputs, rfl⟩ := push_eq_ok_iff.mp h
  have hmem : id ∈ w.unvisited b := by
    rw [hw.visits] at hlt
    simp [Walk.unvisited, hlt, hid]
  have hsum := Finset.add_sum_erase _ (pinWork b c) hmem
  have hcount := inputCount_eq_length hinputs
  rw [Walk.work, hpins]
  simp only [Walk.work, List.map_cons, List.sum_cons, Frame.work]
  rw [pinWork, hcount] at hsum
  omega

/-- Passing an edge takes from what is left to do. -/
theorem work_skip {w w' : Walk} {f : Frame} {below : List Frame} (hstack : w.stack = f :: below)
    (hcursor : f.cursor < f.inputs.length) (h : w.apply b c f below .skip = .ok w') :
  w'.work b c + 1 ≤ w.work b c
  := by
  obtain rfl := pure_eq_ok_iff.mp h
  simp only [Walk.work, Walk.unvisited, hstack, List.map_cons, List.sum_cons, Frame.work]
  omega

/-- Finishing a pin takes from what is left to do. -/
theorem work_finish {w w' : Walk} {f : Frame} {below : List Frame}
    {selected : Option LocalDriver} {resolved : Option NetId} {isOpen : Bool}
    (hpin : w.visit[f.pin]? = some .visiting) (hstack : w.stack = f :: below)
    (h : w.apply b c f below (.finish selected resolved isOpen) = .ok w') :
  w'.work b c + 1 ≤ w.work b c
  := by
  have hvisit := visit_of_finish hpin h
  have hpins : w'.unvisited b = w.unvisited b := by
    apply Finset.filter_congr
    intro q _
    rw [hvisit]
    split
    · rename_i hq
      simp [hq, hpin]
    · rfl
  obtain rfl := eq_of_finish h
  rw [Walk.work, hpins]
  simp only [Walk.work, hstack, List.map_cons, List.sum_cons, Frame.work]
  omega

/-- A pin that passes an edge has edges left. -/
theorem Frame.Moves.lt_of_skip {w : Walk} {f : Frame} (h : f.Moves b g c w .skip) :
  f.cursor < f.inputs.length
  := by
  cases h with
  | skipWaiting known next => apply (List.getElem?_eq_some_iff.mp next).1
  | skipOther known next => apply (List.getElem?_eq_some_iff.mp next).1
  | skipPending known next => apply (List.getElem?_eq_some_iff.mp next).1

/-- Each move takes from what is left to do. -/
theorem work_apply {w w' : Walk} (hw : w.Inv b g c) {f : Frame} {below : List Frame} {m : Move}
    (hstack : w.stack = f :: below) (hmoves : f.Moves b g c w m)
    (h : w.apply b c f below m = .ok w') :
  w'.work b c + 1 ≤ w.work b c
  := by
  cases m with
  | descend id => apply work_push hw hmoves.unvisited_of_descend h
  | skip => apply work_skip hstack hmoves.lt_of_skip h
  | finish selected resolved isOpen =>
    apply work_finish _ hstack h
    rw [hw.waiting, hstack]
    use f, List.mem_cons_self

/-- In all states that the walk passes, what is left to do and the moves that were made come to no
more than there was to do before. -/
theorem Passes.work_le {next moves : Nat} {w : Walk} (h : Passes b g t c next moves w) :
  w.work b c + moveBound b ≤ stepBound b c + moves
  := by
  induction h with
  | start => rw [work_start]
  | pass before stack bound visit ne ih => apply ih
  | enter before stack bound visit push ih =>
    have := work_push before.inv visit push
    omega
  | move before stack move apply ih =>
    have := work_apply before.inv stack (Frame.moves_of_move move) apply
    omega

/-- Each pin on the stack has something left to do. -/
theorem length_stack_le_work (b : BlockGraph) (c : Cluster) (w : Walk) :
  w.stack.length ≤ w.work b c
  := by
  have hle : w.stack.length ≤ (w.stack.map Frame.work).sum := by
    rw [← List.length_map Frame.work]
    apply List.length_le_sum_of_one_le
    intro n hn
    obtain ⟨f, -, rfl⟩ := List.mem_map.mp hn
    apply Nat.le_add_right
  apply hle.trans (Nat.le_add_left _ _)

/-- A walk with pins on the stack has moves left. -/
theorem Passes.moves_pos {next moves : Nat} {w : Walk} (h : Passes b g t c next moves w)
    (hstack : w.stack ≠ []) :
  0 < moves
  := by
  have hle := h.work_le
  have hbound := stepBound_le_moveBound b c
  have hlength := length_stack_le_work b c w
  have hpos := List.length_pos_iff.mpr hstack
  omega

end RoutingFabric.Cluster
