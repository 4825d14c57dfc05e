import Mathlib.Data.List.Chain
import Mathlib.Data.List.Perm.Subperm
import Mathlib.Logic.Relation
import RoutingFabric.BlockGraph.Validity
import RoutingFabric.Proofs.Faults
import RoutingFabric.Proofs.Tables

/-!
# References of block graphs

Once its references are checked, the ids that a block graph stores point into it. Left out of that
are the pins that blocks list, and parents that go round in a loop. So nothing is looked up in vain
when names are made up, but a name has no end below a block that is above itself.
-/

namespace RoutingFabric.BlockGraph

open Relation

/-- The ids that edges, pins, blocks and interconnects store point into the graph. -/
structure Closed (b : BlockGraph) : Prop where
  edges : ∀ (id : EdgeId) e, b.edges[id]? = some e →
    e.source < b.pins.size ∧ e.target < b.pins.size ∧ e.interconnect < b.interconnects.size
  pins : ∀ (id : PinId) p, b.pins[id]? = some p →
    p.block < b.blocks.size ∧ ∀ e ∈ p.inputs ++ p.outputs, e < b.edges.size
  blocks : ∀ (id : BlockId) block, b.blocks[id]? = some block →
    ∀ above ∈ block.parent, above.1 < b.blocks.size
  interconnects : ∀ (id : InterconnectId) ic, b.interconnects[id]? = some ic →
    ∃ owner, b.blocks[ic.owner]? = some owner ∧ ic.mode < owner.modes.length

/-- The first block is the parent of the second. -/
def Above (b : BlockGraph) (above id : BlockId) : Prop :=
  ∃ block mode, b.blocks[id]? = some block ∧ block.parent = some (above, mode)

/-- The root is in the graph, and so are the pins that it lists. -/
def Rooted (b : BlockGraph) : Prop :=
  ∃ block, b.blocks[root]? = some block ∧ ∀ id ∈ block.pins, id < b.pins.size

/-- The fault is that a name has no end, since a block is above itself. -/
def Unending (b : BlockGraph) (e : Fault) : Prop := e = .endless ∧ ∃ id, TransGen b.Above id id

variable {b : BlockGraph} {P : Fault → Prop}

/-! ### Checking references -/

/-- A demand is met exactly when the condition holds. -/
theorem demand_eq_ok_iff {p : Prop} [Decidable p] {otherwise : Problem} :
  demand p otherwise = .ok () ↔ p
  := by
  rw [demand]
  split <;> simp_all

/-- A demand has no faults. -/
theorem faultsIn_demand (p : Prop) [Decidable p] (otherwise : Problem) :
  FaultsIn P (demand p otherwise)
  := by
  rw [demand]
  split
  · apply faultsIn_ok
  · apply faultsIn_fail

/-- A loop over the entries of a table succeeds exactly when it does for each entry. -/
theorem forM_zipIdx_eq_ok_iff {α : Type} {xs : Array α} {f : α × Nat → Outcome Unit} :
  xs.toList.zipIdx.forM f = .ok () ↔ ∀ (id : Nat) x, xs[id]? = some x → f (x, id) = .ok ()
  := by
  rw [forM_eq_ok_iff, Prod.forall, forall_comm]
  simp only [List.mem_zipIdx_iff_getElem?, Array.getElem?_toList]

/-- References are found to be right exactly when they point into the graph. -/
theorem checkReferences_eq_ok_iff : b.checkReferences = .ok () ↔ b.Closed := by
  simp only [checkReferences, unit_bind_eq_ok_iff, forM_zipIdx_eq_ok_iff]
  constructor
  · rintro ⟨hedges, hpins, hblocks, hinterconnects⟩
    constructor
    case edges =>
      intro id e he
      simpa only [checkEdge, unit_bind_eq_ok_iff, demand_eq_ok_iff] using hedges id e he
    case pins =>
      intro id p hp
      simpa only [checkPin, unit_bind_eq_ok_iff, demand_eq_ok_iff, forM_eq_ok_iff]
        using hpins id p hp
    case blocks =>
      intro id block hblock above habove
      have hcheck := hblocks id block hblock
      rw [checkBlock, habove] at hcheck
      apply demand_eq_ok_iff.mp hcheck
    case interconnects =>
      intro id ic hic
      have hcheck := hinterconnects id ic hic
      rw [checkInterconnect] at hcheck
      split at hcheck
      · rename_i owner howner
        use owner, howner
        apply demand_eq_ok_iff.mp hcheck
      · cases fail_ne_ok hcheck
  · intro hb
    refine ⟨?_, ?_, ?_, ?_⟩
    · intro id e he
      simpa only [checkEdge, unit_bind_eq_ok_iff, demand_eq_ok_iff] using hb.edges id e he
    · intro id p hp
      simpa only [checkPin, unit_bind_eq_ok_iff, demand_eq_ok_iff, forM_eq_ok_iff]
        using hb.pins id p hp
    · intro id block hblock
      rw [checkBlock]
      split
      · rfl
      · rename_i above mode hparent
        apply demand_eq_ok_iff.mpr (hb.blocks id block hblock _ hparent)
    · intro id ic hic
      obtain ⟨owner, howner, hmode⟩ := hb.interconnects id ic hic
      rw [checkInterconnect, howner]
      apply demand_eq_ok_iff.mpr hmode

/-- Faults of a loop over the entries of a table are faults of its steps. -/
theorem faultsIn_forM_zipIdx {α : Type} {xs : Array α} {f : α × Nat → Outcome Unit}
    (hf : ∀ (id : Nat) x, xs[id]? = some x → FaultsIn P (f (x, id))) :
  FaultsIn P (xs.toList.zipIdx.forM f)
  := by
  apply faultsIn_forM
  rintro ⟨x, id⟩ hx
  rw [List.mem_zipIdx_iff_getElem?, Array.getElem?_toList] at hx
  apply hf id x hx

/-- References are checked without faults. -/
theorem faultsIn_checkReferences : FaultsIn P b.checkReferences := by
  have hedge : ∀ id e, FaultsIn P (b.checkEdge id e) := by
    intro id e
    apply (faultsIn_demand _ _).bind
    rintro _ -
    apply (faultsIn_demand _ _).bind
    rintro _ -
    apply faultsIn_demand
  have hpin : ∀ id p, FaultsIn P (b.checkPin id p) := by
    intro id p
    apply (faultsIn_demand _ _).bind
    rintro _ -
    apply faultsIn_forM
    rintro e -
    apply faultsIn_demand
  have hblock : ∀ id block, FaultsIn P (b.checkBlock id block) := by
    intro id block
    unfold checkBlock
    split
    · apply faultsIn_ok
    · apply faultsIn_demand
  have hinterconnect : ∀ id ic, FaultsIn P (b.checkInterconnect id ic) := by
    intro id ic
    unfold checkInterconnect
    split
    · apply faultsIn_demand
    · apply faultsIn_fail
  apply (faultsIn_forM_zipIdx fun id e _ => hedge id e).bind
  rintro _ -
  apply (faultsIn_forM_zipIdx fun id p _ => hpin id p).bind
  rintro _ -
  apply (faultsIn_forM_zipIdx fun id block _ => hblock id block).bind
  rintro _ -
  apply faultsIn_forM_zipIdx fun id ic _ => hinterconnect id ic

/-! ### Names -/

/-- The place of a block is found or not, but there is no problem in that. -/
theorem problemless_blockPath (id : BlockId) : Problemless (b.blockPath id) := by
  have hpath : ∀ more id below, Problemless (b.pathOf more id below) := by
    intro more
    induction more with
    | zero =>
      intro id below
      apply problemless_fault
    | succ more ih =>
      intro id below
      apply (problemless_entry _ _).bind
      intro block
      split
      · apply problemless_pure
      · apply ih
  apply (hpath _ _ _).bind
  intro names
  apply problemless_pure

/-- A name that does not end within some blocks is below as many. -/
theorem Closed.faultsIn_pathOf (hb : b.Closed) {more : Nat} {id : BlockId} {below : List String}
    (hid : id < b.blocks.size) :
  FaultsIn (fun e => e = .endless ∧ ∃ ids : List BlockId, ids.length = more
      ∧ (id :: ids).IsChain (fun q above => b.Above above q)
      ∧ ∀ q ∈ id :: ids, q < b.blocks.size)
    (b.pathOf more id below)
  := by
  induction more generalizing id below with
  | zero =>
    apply faultsIn_fault
    refine ⟨rfl, [], rfl, List.IsChain.singleton id, ?_⟩
    simpa using hid
  | succ more ih =>
    apply (faultsIn_entry hid).bind
    intro block hblock
    split
    · apply faultsIn_ok
    · rename_i above mode hparent
      rw [entry_eq_ok_iff] at hblock
      apply (ih (hb.blocks id block hblock _ hparent)).imp
      rintro e ⟨rfl, ids, hlength, hchain, hbound⟩
      refine ⟨rfl, above :: ids, ?_, ?_, ?_⟩
      · rw [List.length_cons, hlength]
      · apply List.IsChain.cons_cons _ hchain
        exact ⟨block, mode, hblock, hparent⟩
      · rw [List.forall_mem_cons]
        exact ⟨hid, hbound⟩

/-- Of more blocks above each other than there are, some are above themselves. -/
theorem exists_loop_of_isChain {ids : List BlockId}
    (hchain : ids.IsChain (fun q above => b.Above above q)) (hbound : ∀ q ∈ ids, q < b.blocks.size)
    (hlength : b.blocks.size < ids.length) :
  ∃ id ∈ ids, TransGen b.Above id id
  := by
  by_contra hloops
  have hnodup : ids.Nodup := by
    apply nodup_of_isChain hchain
    intro q hq hloop
    apply hloops
    exact ⟨q, hq, transGen_swap.mp hloop⟩
  have hsub : ids ⊆ List.range b.blocks.size := by
    intro q hq
    apply List.mem_range.mpr (hbound q hq)
  have := (List.subperm_of_subset hnodup hsub).length_le
  rw [List.length_range] at this
  omega

/-- The place of a block is found, unless it has no end. -/
theorem Closed.faultsIn_blockPath (hb : b.Closed) {id : BlockId} (hid : id < b.blocks.size) :
  FaultsIn b.Unending (b.blockPath id)
  := by
  apply FaultsIn.bind
  · apply (hb.faultsIn_pathOf hid).imp
    rintro e ⟨rfl, ids, hlength, hchain, hbound⟩
    have hmany : b.blocks.size < (id :: ids).length := by
      rw [List.length_cons, hlength]
      omega
    obtain ⟨q, -, hloop⟩ := exists_loop_of_isChain hchain hbound hmany
    exact ⟨rfl, q, hloop⟩
  · rintro names -
    apply faultsIn_ok

/-- The name of a pin is found, unless it has no end. -/
theorem Closed.faultsIn_pinName (hb : b.Closed) {id : PinId} (hid : id < b.pins.size) :
  FaultsIn b.Unending (b.pinName id)
  := by
  apply (faultsIn_entry hid).bind
  intro p hp
  rw [entry_eq_ok_iff] at hp
  apply (hb.faultsIn_blockPath (hb.pins id p hp).1).bind
  rintro path -
  apply faultsIn_ok

/-! ### Pins -/

/-- Whether a pin that is there is an input of the cluster is found. -/
theorem faultsIn_isClusterInput {id : PinId} (hid : id < b.pins.size) :
  FaultsIn P (b.isClusterInput id)
  := by
  apply (faultsIn_entry hid).bind
  rintro p -
  apply faultsIn_ok

/-- Whether a pin that is there is an output of a primitive is found. -/
theorem Closed.faultsIn_isPrimitiveOutput (hb : b.Closed) {id : PinId} (hid : id < b.pins.size) :
  FaultsIn P (b.isPrimitiveOutput id)
  := by
  apply (faultsIn_entry hid).bind
  intro p hp
  rw [entry_eq_ok_iff] at hp
  split
  · apply faultsIn_ok
  · apply (faultsIn_entry (hb.pins id p hp).1).bind
    rintro block -
    apply faultsIn_ok

/-- The edges that reach a pin in the modes in use are found. -/
theorem Closed.faultsIn_activeInputs (hb : b.Closed) {modes : Array (Option Nat)} {id : PinId}
    (hid : id < b.pins.size) :
  FaultsIn P (b.activeInputs modes id)
  := by
  apply (faultsIn_entry hid).bind
  intro p hp
  rw [entry_eq_ok_iff] at hp
  apply faultsIn_filterMapM
  intro e he
  have hlt := (hb.pins id p hp).2 e (List.mem_append_left _ he)
  apply FaultsIn.bind
  · apply (faultsIn_entry hlt).bind
    intro edge hedge
    rw [entry_eq_ok_iff] at hedge
    apply (faultsIn_entry (hb.edges e edge hedge).2.2).bind
    rintro ic -
    apply faultsIn_ok
  · rintro active -
    apply faultsIn_ok

/-- The edges that reach a pin in the modes in use are among those that reach it. -/
theorem Closed.lt_of_activeInputs (hb : b.Closed) {modes : Array (Option Nat)} {id : PinId}
    {edges : List EdgeId} (h : b.activeInputs modes id = .ok edges) :
  ∀ e ∈ edges, e < b.edges.size
  := by
  obtain ⟨p, hp, h⟩ := bind_eq_ok_iff.mp h
  rw [BlockGraph.pin, entry_eq_ok_iff] at hp
  intro e he
  obtain ⟨e', he', hkeep⟩ := exists_of_mem_filterMapM h he
  obtain ⟨keep, -, hkeep⟩ := bind_eq_ok_iff.mp hkeep
  split at hkeep
  · cases pure_eq_ok_iff.mp hkeep
    apply (hb.pins id p hp).2 e (List.mem_append_left _ he')
  · cases pure_eq_ok_iff.mp hkeep

/-! ### Validity -/

/-- Edges of one pin are compared without faults, unless a name has no end. -/
theorem Closed.faultsIn_checkMixed (hb : b.Closed) {pin : PinId} (hpin : pin < b.pins.size)
    {seen : Seen} (hseen : ∀ x ∈ seen, x.2 < b.interconnects.size) {edges : List EdgeId}
    (hedges : ∀ e ∈ edges, e < b.edges.size) :
  FaultsIn b.Unending (b.checkMixed pin seen edges)
  := by
  induction edges generalizing seen with
  | nil => apply faultsIn_ok
  | cons id edges ih =>
    obtain ⟨hid, hedges⟩ := List.forall_mem_cons.mp hedges
    apply (faultsIn_entry hid).bind
    intro e he
    rw [entry_eq_ok_iff] at he
    obtain ⟨-, -, hinterconnect⟩ := hb.edges id e he
    apply (faultsIn_entry hinterconnect).bind
    rintro ic -
    split
    · rename_i first hfirst
      split
      · apply ih hseen hedges
      · apply (hb.faultsIn_pinName hpin).bind
        rintro name -
        apply (faultsIn_entry (hseen _ (mem_of_lookup_eq_some hfirst))).bind
        rintro other -
        apply faultsIn_fail
    · apply ih _ hedges
      rw [List.forall_mem_cons]
      exact ⟨hinterconnect, hseen⟩

/-- A graph is found to be valid only if its references point into it. -/
theorem closed_of_validate (h : b.validate = .ok ()) : b.Closed := by
  obtain ⟨_, hreferences, -⟩ := bind_eq_ok_iff.mp h
  apply checkReferences_eq_ok_iff.mp hreferences

/-- Validity is checked without faults, unless a name has no end. -/
theorem faultsIn_validate : FaultsIn b.Unending b.validate := by
  apply faultsIn_checkReferences.bind
  intro _ hreferences
  have hb := checkReferences_eq_ok_iff.mp hreferences
  apply faultsIn_forM_zipIdx
  intro id p hp
  apply hb.faultsIn_checkMixed
  · apply (Array.getElem?_eq_some_iff.mp hp).1
  · simp
  · intro e he
    apply (hb.pins id p hp).2 e (List.mem_append_left _ he)

end RoutingFabric.BlockGraph
