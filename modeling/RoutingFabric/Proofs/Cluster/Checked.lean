import RoutingFabric.Cluster.Propagation
import RoutingFabric.Proofs.Cluster.Links
import RoutingFabric.Proofs.Cluster.Preparation

/-!
# Checked clusters

A prepared cluster holds only ids of pins, nets and nodes that are there. With a type whose
references point into it, all that is known of a pin before drivers are selected is then found
without a fault.
-/

namespace RoutingFabric.Cluster

open BlockGraph

/-- The ids that a cluster of the type holds are those of pins, and of nodes and nets below the
numbers of them. -/
structure Checked (b : BlockGraph) (nodes nets : Nat) (c : Cluster) : Prop where
  forwards : ∀ x ∈ c.routeThroughs, x.2 < b.pins.size
  assigned : ∀ net, some net ∈ c.pinNets → net < nets
  bound : ∀ x ∈ c.locals.bindings, x.1 < b.pins.size ∧ x.2 < nodes
  size : c.locals.pins.size = b.pins.size

variable {P : Fault → Prop} {b : BlockGraph} {g : RoutingGraph} {t : NetTable} {c c' : Cluster}
variable {nodes nets : Nat} {id q : PinId}

/-- The indices of a cluster are found to be right only if the ids are those of pins and nets. -/
theorem lt_of_checkIndices (h : c.checkIndices b nets = .ok ()) :
  (∀ x ∈ c.routeThroughs, x.2 < b.pins.size) ∧ ∀ net, some net ∈ c.pinNets → net < nets
  := by
  obtain ⟨hpins, hnets⟩ := unit_bind_eq_ok_iff.mp h
  rw [forM_eq_ok_iff] at hpins hnets
  constructor
  · intro x hx
    have hcheck := hpins x.2 (List.mem_flatMap.mpr ⟨x, hx, by simp⟩)
    by_contra hle
    rw [if_pos (Nat.le_of_not_lt hle)] at hcheck
    cases fail_ne_ok hcheck
  · intro net hnet
    have hcheck := hnets net (by simpa using hnet)
    by_contra hle
    rw [if_pos (Nat.le_of_not_lt hle)] at hcheck
    cases fail_ne_ok hcheck

/-- A prepared cluster is checked. -/
theorem checked_of_prepare (h : (prepare b g nets).Gives c () c') : Checked b g.size nets c' := by
  obtain ⟨hindices, -, bindings, hbindings, rfl⟩ := gives_prepare_iff.mp h
  obtain ⟨hforwards, hassigned⟩ := lt_of_checkIndices hindices
  constructor
  case forwards => apply hforwards
  case assigned => apply hassigned
  case bound => apply lt_of_bindings hbindings
  case size => apply Array.size_replicate

/-! ### What is known of a pin -/

/-- The net assigned to a pin is one of the nets. -/
theorem Checked.lt_of_pinNet (hc : Checked b nodes nets c) {net : NetId}
    (h : c.pinNet id = some net) :
  net < nets
  := by
  apply hc.assigned
  apply Array.mem_of_getElem?
  apply Option.join_eq_some_iff.mp h

/-- The logical net of a net that is assigned to a pin is found. -/
theorem Checked.faultsIn_assigned (hc : Checked b nodes t.nets.size c) :
  FaultsIn P (Cluster.assigned t (c.pinNet id))
  := by
  apply FaultsIn.bind
  · cases hnet : c.pinNet id with
    | none => apply faultsIn_ok
    | some net =>
      apply FaultsIn.bind
      · apply (faultsIn_entry (hc.lt_of_pinNet hnet)).bind
        rintro n -
        apply faultsIn_ok
      · rintro logical -
        apply faultsIn_ok
  · rintro logical -
    apply faultsIn_ok

/-- A boundary pin is bound to a node. -/
theorem Checked.lt_of_nodeOf (hc : Checked b nodes nets c) {node : NodeId}
    (h : c.locals.nodeOf id = some node) :
  node < nodes
  := (hc.bound _ (mem_of_lookup_eq_some h)).2

/-- The net that a pin is known to carry is found. -/
theorem Checked.faultsIn_knownNet (hc : Checked b g.size nets c) (hid : id < b.pins.size) :
  FaultsIn P (knownNet b g c id)
  := by
  rw [knownNet]
  split
  · apply faultsIn_ok
  · apply (faultsIn_isClusterInput hid).bind
    rintro isInput -
    split
    · split
      · rename_i node hnode
        apply (faultsIn_entry (hc.lt_of_nodeOf hnode)).bind
        rintro n -
        apply faultsIn_ok
      · apply faultsIn_ok
    · apply faultsIn_ok

/-- The input that a pin forwards is found. -/
theorem faultsIn_forwarded (hb : b.Closed) (hid : id < b.pins.size) :
  FaultsIn P (forwarded b c id)
  := by
  rw [forwarded]
  split
  · apply faultsIn_ok
  · apply (hb.faultsIn_isPrimitiveOutput hid).bind
    rintro isOutput -
    apply faultsIn_ok

/-- A pin forwards a pin that is there. -/
theorem Checked.lt_of_forwarded (hc : Checked b nodes nets c)
    (h : forwarded b c id = .ok (some q)) :
  q < b.pins.size
  := by
  rw [forwarded] at h
  split at h
  · cases h
  · rename_i input hinput
    obtain ⟨isOutput, -, h⟩ := bind_eq_ok_iff.mp h
    cases isOutput with
    | false => cases pure_eq_ok_iff.mp h
    | true =>
      cases pure_eq_ok_iff.mp h
      apply hc.forwards _ (mem_of_lookup_eq_some hinput)

/-- Whether a pin is undriven is found. -/
theorem faultsIn_isUndriven (hb : b.Closed) (hid : id < b.pins.size) :
  FaultsIn P (isUndriven b id)
  := by
  apply (faultsIn_isClusterInput hid).bind
  rintro isInput -
  split
  · apply faultsIn_ok
  · apply (hb.faultsIn_isPrimitiveOutput hid).bind
    rintro isOutput -
    apply faultsIn_ok

/-- The edges that may drive a pin are found. -/
theorem faultsIn_inputsOf (hb : b.Closed) (hid : id < b.pins.size) :
  FaultsIn P (inputsOf b c id)
  := by
  apply (hb.faultsIn_activeInputs hid).bind
  intro edges hedges
  apply faultsIn_mapM
  intro e he
  apply (faultsIn_entry (hb.lt_of_activeInputs hedges e he)).bind
  rintro edge -
  apply faultsIn_ok

/-- The edges that may drive a pin come from pins that are there. -/
theorem lt_of_inputsOf (hb : b.Closed) {inputs : List Input} (h : inputsOf b c id = .ok inputs) :
  ∀ i ∈ inputs, i.source < b.pins.size
  := by
  obtain ⟨edges, -, h⟩ := bind_eq_ok_iff.mp h
  intro i hi
  obtain ⟨e, -, h⟩ := exists_of_mem_mapM h hi
  obtain ⟨edge, hedge, h⟩ := bind_eq_ok_iff.mp h
  cases pure_eq_ok_iff.mp h
  apply (hb.edges e edge (entry_eq_ok_iff.mp hedge)).1

/-- The pin whose net a pin copies is found. -/
theorem faultsIn_dependency (hb : b.Closed) {pins : Array PinState}
    (hsize : pins.size = b.pins.size) (hid : id < b.pins.size) :
  FaultsIn P (dependency b c pins id)
  := by
  apply FaultsIn.bind
  · apply faultsIn_entry
    rw [hsize]
    apply hid
  · rintro s -
    split
    · apply faultsIn_ok
    · apply faultsIn_forwarded hb hid

end RoutingFabric.Cluster
