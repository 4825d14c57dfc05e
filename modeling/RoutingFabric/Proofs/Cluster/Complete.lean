import RoutingFabric.Proofs.BlockGraph.Names
import RoutingFabric.Proofs.Cluster.Faults

/-!
# The order of propagation is complete

An order of propagation is found exactly when no pin copies from itself in the end. It is complete:
every pin is in it once, and after the pin that it copies from. Where pins copy in a cycle, one of
them is reported. The report names the pin, so none is given for a pin whose name has no end.
-/

namespace RoutingFabric.Cluster

open BlockGraph Relation

variable {b : BlockGraph} {c : Cluster} {pins : Array PinState} {id q : PinId} {order : List PinId}

/-- There is a state for each pin, and drivers that are selected and inputs that are forwarded are
pins. -/
structure Ranged (b : BlockGraph) (c : Cluster) (pins : Array PinState) : Prop where
  size : pins.size = b.pins.size
  drivers : ∀ s ∈ pins, ∀ d ∈ s.selected, d.pin < b.pins.size
  forwards : ∀ x ∈ c.routeThroughs, x.2 < b.pins.size

/-- Every pin is in the list once, and after the pin that it copies from. -/
structure Sorts (b : BlockGraph) (c : Cluster) (pins : Array PinState) (order : List PinId) :
    Prop where
  nodup : order.Nodup
  mem_iff : ∀ id, id ∈ order ↔ id < pins.size
  before : ∀ (i : Nat) id q, order[i]? = some id → Copies b c pins id q →
    ∃ j < i, order[j]? = some q

/-! ### Pins that copy -/

/-- A pin copies from its selected driver, or from the input that it forwards as an output of a
primitive. -/
theorem copies_iff :
  Copies b c pins id q ↔ ∃ s, pins[id]? = some s ∧ ((∃ d, s.selected = some d ∧ d.pin = q)
    ∨ s.selected = none ∧ c.routeThrough id = some q ∧ b.isPrimitiveOutput id = .ok true)
  := by
  rw [Copies, dependency, bind_eq_ok_iff]
  apply exists_congr
  intro s
  rw [entry_eq_ok_iff]
  apply and_congr_right
  intro hs
  cases s.selected with
  | some d => simp [pure_eq_ok_iff]
  | none =>
    rw [forwarded]
    cases c.routeThrough id with
    | none => simp [pure_eq_ok_iff]
    | some input =>
      cases b.isPrimitiveOutput id with
      | error e => simp
      | ok isOutput => cases isOutput <;> simp

/-- A pin copies from a pin. -/
theorem Ranged.lt_of_copies (h : Ranged b c pins) (hcopies : Copies b c pins id q) :
  q < b.pins.size
  := by
  obtain ⟨s, hs, ⟨d, hd, rfl⟩ | ⟨-, hforwards, -⟩⟩ := copies_iff.mp hcopies
  · apply h.drivers s (Array.mem_of_getElem? hs) d hd
  · apply h.forwards _ (mem_of_lookup_eq_some hforwards)

/-! ### Pins that are in order -/

/-- In a sorted list a pin comes after the one it copies from, unless that one is done. -/
theorem InOrder.before {done : Set PinId} (h : InOrder b c pins done order) {i : Nat}
    (hi : order[i]? = some id) (hcopies : Copies b c pins id q) :
  q ∈ done ∨ ∃ j < i, order[j]? = some q
  := by
  induction h generalizing i with
  | nil => cases hi
  | @cons done first next rest fresh copies after later ih =>
    cases i with
    | zero =>
      cases hi
      left
      apply after q (Except.ok.inj (copies.symm.trans hcopies))
    | succ i =>
      rcases ih hi with (rfl | hdone) | ⟨j, hj, hq⟩
      · right
        use 0, Nat.succ_pos i
        rfl
      · left
        apply hdone
      · right
        use j + 1, Nat.succ_lt_succ hj
        apply hq

/-- The order of propagation is complete. -/
theorem sorts_of_propagationOrder (h : propagationOrder b c pins = .ok order) :
  Sorts b c pins order
  := by
  obtain ⟨hsorted, hmem⟩ := inOrder_of_propagationOrder h
  constructor
  case nodup => apply hsorted.nodup
  case mem_iff => apply hmem
  case before =>
    intro i id q hi hcopies
    apply (hsorted.before hi hcopies).resolve_left
    apply Set.notMem_empty

/-! ### Pins that are not -/

/-- Where no order is found, a pin copies from itself. It is reported by its name, or its name has
no end. -/
theorem Ranged.cycle_of_error (h : Ranged b c pins) (hb : b.Closed) {e : Stop}
    (herror : propagationOrder b c pins = .error e) :
  ∃ id p, TransGen (Copies b c pins) id id ∧ b.pins[id]? = some p
    ∧ ((∃ name, b.pinName id = .ok name ∧ e = .problem (.localDriverCycle c.name name))
      ∨ b.Looped p.block ∧ e = .fault .endless)
  := by
  have hpin : ∀ id, TransGen (Copies b c pins) id id → ∃ p, b.pins[id]? = some p := by
    intro id hcycle
    obtain ⟨q, hcopies, -⟩ := TransGen.head'_iff.mp hcycle
    have hid := hcopies.lt_size
    rw [h.size] at hid
    exact ⟨_, Array.getElem?_eq_getElem hid⟩
  cases e with
  | problem p =>
    obtain ⟨id, name, hcycle, hname, rfl⟩ := cycle_of_propagationOrder herror
    obtain ⟨p, hp⟩ := hpin id hcycle
    exact ⟨id, p, hcycle, hp, .inl ⟨name, hname, rfl⟩⟩
  | fault f =>
    have hfaults : FaultsIn (fun f => ∃ id p, TransGen (Copies b c pins) id id
        ∧ b.pins[id]? = some p ∧ b.Looped p.block ∧ f = .endless) (propagationOrder b c pins) := by
      apply faultsIn_propagationOrder hb h.size fun _ _ => h.lt_of_copies
      intro id hcycle
      obtain ⟨p, hp⟩ := hpin id hcycle
      apply hb.faultsIn_pinName_looped hp
      intro hloop
      exact ⟨id, p, hcycle, hp, hloop, rfl⟩
    obtain ⟨id, p, hcycle, hp, hloop, rfl⟩ := hfaults.property f herror
    exact ⟨id, p, hcycle, hp, .inr ⟨hloop, rfl⟩⟩

/-- In a valid graph an order is found exactly when no pin copies from itself, and it is complete.
Otherwise a pin that copies from itself is reported, unless its block is in or below a loop, so that
looking for its name has no end. -/
theorem propagationOrder_complete (hb : b.validate = .ok ()) (h : Ranged b c pins) :
  ((∃ order, propagationOrder b c pins = .ok order) ↔ ∀ id, ¬ TransGen (Copies b c pins) id id)
    ∧ (∀ order, propagationOrder b c pins = .ok order → Sorts b c pins order)
    ∧ ∀ e, propagationOrder b c pins = .error e →
      ∃ id p, TransGen (Copies b c pins) id id ∧ b.pins[id]? = some p
        ∧ ((∃ name, b.pinName id = .ok name ∧ e = .problem (.localDriverCycle c.name name))
          ∨ b.Looped p.block ∧ e = .fault .endless)
  := by
  have hclosed := closed_of_validate hb
  refine ⟨⟨?_, ?_⟩, ?_, ?_⟩
  · rintro ⟨order, horder⟩
    apply acyclic_of_propagationOrder horder
  · intro hacyclic
    cases horder : propagationOrder b c pins with
    | ok order => exact ⟨order, rfl⟩
    | error e =>
      obtain ⟨id, p, hcycle, -⟩ := h.cycle_of_error hclosed horder
      cases hacyclic id hcycle
  · intro order horder
    apply sorts_of_propagationOrder horder
  · intro e herror
    apply h.cycle_of_error hclosed herror

/-! ### A primitive that feeds itself -/

/-- A primitive with an edge from its output to its input, in a block whose parent is the given
one. -/
def loopbackGraph (above : BlockId) : BlockGraph where
  name := "clb"
  blocks := #[
    { name := "clb", type := "clb", modes := [⟨"default", [1], []⟩] },
    { name := "ble[0]", type := "ble", parent := some (above, 0), depth := 1,
      modes := [⟨"default", [2], [0]⟩] },
    { name := "lut[0]", type := "lut", parent := some (1, 0), depth := 2, pins := [0, 1] }]
  pins := #[
    { block := 2, port := "out", bit := 0, kind := .output, outputs := [0] },
    { block := 2, port := "in", bit := 0, kind := .input, inputs := [0] }]
  edges := #[⟨0, 1, 0⟩]
  interconnects := #[{ name := "loopback", kind := .wire, owner := 1, mode := 0, edges := [0] }]

/-- A cluster whose primitive forwards its input. -/
def loopbackCluster : Cluster where
  name := "c0"
  blockGraph := 0
  place := ⟨0, 0⟩
  modes := #[some 0, some 0, none]
  pinNets := #[none, none]
  routeThroughs := [(0, 1)]
  locals := Local.blank 2

/-- The drivers that are selected: the output drives the input. -/
def loopbackPins : Array PinState := #[{}, { selected := some ⟨0, 0, 0, 1⟩ }]

/-- The output copies from the input, which copies from the output. -/
theorem cycle_loopback (above : BlockId) :
  TransGen (Copies (loopbackGraph above) loopbackCluster loopbackPins) 0 0
  := by
  have hforwards : Copies (loopbackGraph above) loopbackCluster loopbackPins 0 1 := rfl
  have hdriven : Copies (loopbackGraph above) loopbackCluster loopbackPins 1 0 := rfl
  apply TransGen.tail (TransGen.single hforwards) hdriven

/-- The drivers and the input that is forwarded are pins. -/
theorem ranged_loopback (above : BlockId) :
  Ranged (loopbackGraph above) loopbackCluster loopbackPins
  := ⟨rfl, by simp [loopbackPins, loopbackGraph], by simp [loopbackCluster, loopbackGraph]⟩

/-- Below the root the cycle is reported. -/
theorem loopback_complete :
  (loopbackGraph 0).validate = .ok () ∧ Ranged (loopbackGraph 0) loopbackCluster loopbackPins
    ∧ ∃ id name, TransGen (Copies (loopbackGraph 0) loopbackCluster loopbackPins) id id
      ∧ (loopbackGraph 0).pinName id = .ok name
      ∧ propagationOrder (loopbackGraph 0) loopbackCluster loopbackPins
        = .error (.problem (.localDriverCycle "c0" name))
  := by
  have hvalid : (loopbackGraph 0).validate = .ok () := by decide +kernel
  refine ⟨hvalid, ranged_loopback 0, ?_⟩
  obtain ⟨hiff, -, herror⟩ := propagationOrder_complete hvalid (ranged_loopback 0)
  cases horder : propagationOrder (loopbackGraph 0) loopbackCluster loopbackPins with
  | ok order => cases hiff.mp ⟨order, horder⟩ 0 (cycle_loopback 0)
  | error e =>
    obtain ⟨id, p, hcycle, hp, ⟨name, hname, rfl⟩ | ⟨-, rfl⟩⟩ := herror e horder
    · exact ⟨id, name, hcycle, hname, rfl⟩
    · cases (show propagationOrder (loopbackGraph 0) loopbackCluster loopbackPins
        ≠ fault .endless by decide +kernel) horder

/-- Below a block that is its own parent the cycle is not reported, since looking for the name of
its pin has no end. Nor has the selection of drivers, which comes to the same cycle. -/
theorem endless_loopback :
  (loopbackGraph 1).validate = .ok () ∧ Ranged (loopbackGraph 1) loopbackCluster loopbackPins
    ∧ TransGen (Copies (loopbackGraph 1) loopbackCluster loopbackPins) 0 0
    ∧ propagationOrder (loopbackGraph 1) loopbackCluster loopbackPins = fault .endless
    ∧ selectWithin (loopbackGraph 1) {} {} loopbackCluster (moveBound (loopbackGraph 1))
      = .ok loopbackPins
    ∧ ((selectLocalDrivers (loopbackGraph 1) {} {}).run loopbackCluster).outcome = fault .endless
  := by
  refine ⟨by decide +kernel, ranged_loopback 1, cycle_loopback 1, ?_, ?_, ?_⟩
  · decide +kernel
  · decide +kernel
  · decide +kernel

end RoutingFabric.Cluster
