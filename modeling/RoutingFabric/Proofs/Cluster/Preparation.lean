import RoutingFabric.Cluster.Binding
import RoutingFabric.Proofs.BlockGraph.References
import RoutingFabric.Proofs.RoutingGraph.Views
import RoutingFabric.Proofs.Safety

/-!
# Preparing a cluster, and the faults of it

A cluster is prepared once its tables fit its type, its stored ids are found to be right and its
boundary pins are bound. The faults of that are those that a valid type can have: a name without an
end, and a root that is not there or lists a pin that is not.
-/

namespace RoutingFabric

/-- A node that is found is one of the graph. -/
theorem RoutingGraph.lt_of_findPin {g : RoutingGraph} {kind : Kind} {t : Tile} {pin : Nat}
    {node : NodeId} (h : g.findPin kind t pin = some node) :
  node < g.size
  := by
  have hat := (List.mem_filter.mp (List.mem_of_find?_eq_some h)).2
  rw [isAt] at hat
  split at hat
  · rename_i n hn
    apply lt_of_node_eq (entry_eq_ok_iff.mpr hn)
  · cases hat

namespace Cluster

open BlockGraph

variable {P : Fault → Prop} {b : BlockGraph} {g : RoutingGraph} {c c' : Cluster} {nets : Nat}

/-- A cluster is prepared once its ids are found to be right and its boundary pins are bound. -/
theorem gives_prepare_iff :
  (prepare b g nets).Gives c () c' ↔ (c.fitted b).checkIndices b nets = .ok ()
    ∧ (c.fitted b).checkModes b = .ok ()
    ∧ ∃ bindings, (c.fitted b).bindings b g = .ok bindings
      ∧ c' = { c.fitted b with locals := { Local.blank b.pins.size with bindings } }
  := by
  simp only [prepare, Phase.gives_bind_iff, Phase.gives_state_iff, Phase.gives_lift_iff,
    Phase.gives_put_iff]
  constructor
  · rintro ⟨_, _, ⟨rfl, rfl⟩, _, _, rfl, _, _, ⟨hindices, rfl⟩, _, _, ⟨hmodes, rfl⟩, bindings, _,
      ⟨hbindings, rfl⟩, rfl⟩
    exact ⟨hindices, hmodes, bindings, hbindings, rfl⟩
  · rintro ⟨hindices, hmodes, bindings, hbindings, rfl⟩
    exact ⟨c, c, ⟨rfl, rfl⟩, (), _, rfl, (), _, ⟨hindices, rfl⟩, (), _, ⟨hmodes, rfl⟩, bindings, _,
      ⟨hbindings, rfl⟩, rfl⟩

/-- Preparing a cluster leaves its type. -/
theorem blockGraph_of_prepare (h : (prepare b g nets).Gives c () c') :
  c'.blockGraph = c.blockGraph
  := by
  obtain ⟨-, -, bindings, -, rfl⟩ := gives_prepare_iff.mp h
  rfl

/-! ### Faults -/

/-- The stored ids of a cluster are checked without faults. -/
theorem faultsIn_checkIndices : FaultsIn P (c.checkIndices b nets) := by
  apply FaultsIn.bind
  · apply faultsIn_forM
    rintro pin -
    split
    · apply faultsIn_fail
    · apply faultsIn_ok
  · rintro _ -
    apply faultsIn_forM
    rintro net -
    split
    · apply faultsIn_fail
    · apply faultsIn_ok

/-- A table of a new size has that size. -/
theorem size_resized {α : Type} (xs : Array (Option α)) (n : Nat) : (resized xs n).size = n := by
  rw [resized, List.size_toArray, List.length_append, List.length_take, List.length_replicate,
    Array.length_toList]
  omega

/-- The modes in use are checked without faults, unless a name has no end. -/
theorem faultsIn_checkModes (hb : b.Closed) (hmodes : c.modes.size = b.blocks.size) :
  FaultsIn b.Unending (c.checkModes b)
  := by
  apply faultsIn_forM_zipIdx
  intro id mode hmode
  have hid : id < b.blocks.size := by
    rw [← hmodes]
    apply (Array.getElem?_eq_some_iff.mp hmode).1
  cases mode with
  | none => apply faultsIn_ok
  | some mode =>
    apply (faultsIn_entry hid).bind
    rintro block -
    split
    · apply (hb.faultsIn_blockPath hid).bind
      rintro path -
      apply faultsIn_fail
    · apply faultsIn_ok

/-- The fault is one that valid block graphs can have: a name without an end, or a root that is not
there or lists a pin that is not. -/
def FaultOfType (b : BlockGraph) (e : Fault) : Prop :=
  b.Unending e ∨ e = .outOfRange ∧ ¬ b.Rooted

/-- A pin that is there is bound without faults, unless a name has no end. -/
theorem faultsIn_bind (hb : b.Closed) {id : PinId} (hid : id < b.pins.size) :
  FaultsIn b.Unending (c.bind b g id)
  := by
  apply (faultsIn_entry hid).bind
  rintro p -
  split
  · apply faultsIn_ok
  · split
    · apply faultsIn_ok
    · apply (hb.faultsIn_pinName hid).bind
      rintro name -
      apply faultsIn_fail

/-- The pins of a root are bound without faults, unless one of them is not there. -/
theorem faultsIn_bindings (hb : b.Closed) : FaultsIn (FaultOfType b) (c.bindings b g) := by
  apply FaultsIn.bind
  · apply faultsIn_entry_of_imp
    rintro hnone
    refine .inr ⟨rfl, ?_⟩
    rintro ⟨block, hblock, -⟩
    have := (Array.getElem?_eq_some_iff.mp hblock).1
    omega
  · intro block hblock
    rw [BlockGraph.block, entry_eq_ok_iff] at hblock
    apply faultsIn_filterMapM
    intro id hid
    by_cases hlt : id < b.pins.size
    · apply (faultsIn_bind hb hlt).imp
      intro e he
      exact .inl he
    · apply FaultsIn.bind
      · apply faultsIn_entry_of_imp
        rintro -
        refine .inr ⟨rfl, ?_⟩
        rintro ⟨block', hblock', hpins⟩
        rw [hblock] at hblock'
        cases hblock'
        apply hlt (hpins id hid)
      · intro p hp
        rw [BlockGraph.pin, entry_eq_ok_iff] at hp
        cases hlt (Array.getElem?_eq_some_iff.mp hp).1

/-- A cluster has bindings only if the root of its type is there, with the pins that it lists. -/
theorem rooted_of_bindings {bs : List (PinId × NodeId)} (h : c.bindings b g = .ok bs) :
  b.Rooted
  := by
  obtain ⟨block, hblock, h⟩ := bind_eq_ok_iff.mp h
  use block, entry_eq_ok_iff.mp hblock
  intro id hid
  obtain ⟨binding, hbind⟩ := exists_of_filterMapM_eq_ok h id hid
  obtain ⟨p, hp, -⟩ := bind_eq_ok_iff.mp hbind
  apply (Array.getElem?_eq_some_iff.mp (entry_eq_ok_iff.mp hp)).1

/-- A cluster of a closed type is prepared without faults other than those of the type. -/
theorem faultsIn_prepare (hb : b.Closed) : (prepare b g nets).FaultsIn (FaultOfType b) c := by
  apply Phase.faultsIn_state_bind
  apply Phase.FaultsIn.bind
  · apply faultsIn_ok
  · rintro _ s' -
    apply Phase.faultsIn_lift_bind faultsIn_checkIndices
    rintro _ -
    apply Phase.faultsIn_lift_bind
    · apply (faultsIn_checkModes hb (size_resized _ _)).imp
      intro e he
      exact .inl he
    · rintro _ -
      apply Phase.faultsIn_lift_bind (faultsIn_bindings hb)
      rintro bindings -
      apply faultsIn_ok

/-- Bindings lead from pins to nodes. -/
theorem lt_of_bindings {bs : List (PinId × NodeId)} (h : c.bindings b g = .ok bs) :
  ∀ x ∈ bs, x.1 < b.pins.size ∧ x.2 < g.size
  := by
  obtain ⟨root, -, h⟩ := bind_eq_ok_iff.mp h
  intro x hx
  obtain ⟨id, -, hbind⟩ := exists_of_mem_filterMapM h hx
  obtain ⟨p, hp, hbind⟩ := bind_eq_ok_iff.mp hbind
  split at hbind
  · cases hbind
  · split at hbind
    · rename_i node hnode
      cases pure_eq_ok_iff.mp hbind
      constructor
      · apply (Array.getElem?_eq_some_iff.mp (entry_eq_ok_iff.mp hp)).1
      · apply RoutingGraph.lt_of_findPin hnode
    · obtain ⟨name, -, hbind⟩ := bind_eq_ok_iff.mp hbind
      cases fail_ne_ok hbind

/-- The type of a prepared cluster has a root, and all the pins that the root lists. -/
theorem rooted_of_prepare (h : (prepare b g nets).Gives c () c') : b.Rooted := by
  obtain ⟨-, -, bs, hbs, -⟩ := gives_prepare_iff.mp h
  apply rooted_of_bindings hbs

end Cluster

end RoutingFabric
