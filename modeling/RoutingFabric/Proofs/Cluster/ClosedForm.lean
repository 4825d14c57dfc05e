import RoutingFabric.Proofs.Cluster.FirstMatch
import RoutingFabric.Proofs.Cluster.Round

/-!
# Propagation in closed form

One sweep in the order of propagation gives every pin the logical net that enters the cluster at
the end of its chain of copies, whatever nets the pins had before. The inputs that it changes are
those whose logical net is another one than before, and a second sweep changes none. The main
statement is `closed_form_of_selectLocalDrivers`.
-/

namespace RoutingFabric.Cluster

open Relation

/-- The pin is at the end of the chain of copies that begins at another one. -/
def EndsAt (b : BlockGraph) (c : Cluster) (id e : PinId) : Prop :=
  ReflTransGen (Copies b c c.locals.pins) id e ∧ dependency b c c.locals.pins e = .ok none

/-- The logical net that enters the cluster at a pin which copies from none. -/
inductive Enters (b : BlockGraph) (g : RoutingGraph) (t : NetTable) (c : Cluster) (e : PinId) :
    Option LogicalId → Prop
  /-- it is the one of the node that an input of the cluster is bound to, if that has a net -/
  | routed {node : NodeId} {n : RoutingGraph.Node} (input : b.isClusterInput e = .ok true)
    (bound : c.locals.nodeOf e = some node) (found : g.node node = .ok n)
    (carries : n.net.isSome) :
    Enters b g t c e n.logical
  /-- otherwise it is the one of the net that clustering assigns, if any -/
  | assigned {logical : Option LogicalId}
    (unrouted : ∀ node n, b.isClusterInput e = .ok true → c.locals.nodeOf e = some node →
      g.node node = .ok n → n.net = none)
    (assigned : t.logicalOf? (c.pinNet e) = .ok logical) :
    Enters b g t c e logical

/-- The nodes that pins are bound to are those of a graph, and the nets assigned to pins those of a
table. -/
structure Served (g : RoutingGraph) (t : NetTable) (c : Cluster) : Prop where
  nodes : ∀ id node, c.locals.nodeOf id = some node → node < g.size
  nets : ∀ id net, c.pinNet id = some net → net < t.nets.size

/-- The cluster in which no pin counts as changed. -/
def unchanged (c : Cluster) : Cluster :=
  { c with locals := { c.locals with
      pins := c.locals.pins.map fun s => { s with changed := false } } }

/-- What propagating nets makes of a cluster. -/
structure ClosedForm (b : BlockGraph) (g : RoutingGraph) (t : NetTable) (c c' : Cluster)
    (count : Nat) : Prop where
  /-- it changes nothing but nets -/
  same : c'.silent = c.silent
  /-- every chain of copies ends -/
  ends : ∀ id < b.pins.size, ∃ e, EndsAt b c id e
  /-- every pin carries the logical net that enters at the end of its chain -/
  logical : ∀ id e, EndsAt b c id e → Enters b g t c e (c'.logicalAt id)
  /-- the pins that are changed are counted -/
  counted : count = c'.locals.changedPins.length
  /-- the pins that are changed are the inputs whose logical net is another one than before -/
  changed : ∀ id, id ∈ c'.locals.changedPins
    ↔ (∃ p, b.pin id = .ok p ∧ p.kind.isInput) ∧ c.logicalAt id ≠ c'.logicalAt id
  /-- propagating nets again changes no pin -/
  again : propagateNets b g t c' = .ok (0, c'.unchanged)

variable {b : BlockGraph} {g g₀ : RoutingGraph} {t t₀ : NetTable} {c c₀ c₁ c' : Cluster}
variable {id e : PinId} {count : Nat}

/-! ### Ends of chains -/

/-- The chain of copies of each pin of an ordered cluster ends. -/
theorem Ordered.exists_end (h : Ordered b c) (hid : id < b.pins.size) : ∃ e, EndsAt b c id e := by
  have hgrounded := h.grounded id
  rw [← h.size] at hid
  induction hgrounded with
  | intro id _ ih =>
    obtain ⟨next, hnext⟩ := h.exists_dependency id hid
    cases next with
    | none => exact ⟨id, .refl, hnext⟩
    | some q =>
      obtain ⟨e, hchain, hend⟩ := ih q hnext (h.lt_of_copies hnext)
      exact ⟨e, hchain.head hnext, hend⟩

/-- What a pin takes from outside has the logical net that enters there. -/
theorem enters_of_outside {net : Option NetId} {logical : Option LogicalId}
    (h : outside b g t c e = .ok (net, logical)) :
  Enters b g t c e logical
  := by
  obtain ⟨isInput, hinput, h⟩ := bind_eq_ok_iff.mp h
  cases isInput with
  | false =>
    apply Enters.assigned _ (logicalOf_of_assigned h)
    intro node n hinput'
    rw [hinput] at hinput'
    cases hinput'
  | true =>
    cases hnode : c.locals.nodeOf e with
    | none =>
      rw [hnode] at h
      apply Enters.assigned _ (logicalOf_of_assigned h)
      intro node n _ hnode'
      rw [hnode] at hnode'
      cases hnode'
    | some node =>
      rw [hnode] at h
      obtain ⟨n, hn, h⟩ := bind_eq_ok_iff.mp h
      split at h
      · rename_i hsome
        cases pure_eq_ok_iff.mp h
        apply Enters.routed hinput hnode hn hsome
      · rename_i hnone
        apply Enters.assigned _ (logicalOf_of_assigned h)
        intro node' n' _ hnode' hn'
        cases hnode.symm.trans hnode'
        cases hn.symm.trans hn'
        simpa using hnone

/-- In a steady cluster every pin carries the logical net that enters at the end of its chain. -/
theorem Steady.enters (h : Steady b g t c) (hend : EndsAt b c id e) :
  Enters b g t c e (c.logicalAt id)
  := by
  obtain ⟨hchain, hend⟩ := hend
  induction hchain using ReflTransGen.head_induction_on with
  | refl => apply enters_of_outside (h.outside_eq hend)
  | head hcopies _ ih =>
    rw [h.logicalAt_of_copies hcopies]
    apply ih

/-- What enters does not depend on the nets of pins. -/
theorem Enters.of_silent_eq {logical : Option LogicalId} (h : Enters b g t c e logical)
    (hsame : c.silent = c'.silent) :
  Enters b g t c' e logical
  := by
  have hnode := congr_of_silent_eq (·.locals.nodeOf e) (fun _ => rfl) hsame
  have hnet := congr_of_silent_eq (·.pinNet e) (fun _ => rfl) hsame
  cases h with
  | routed input bound found carries => exact .routed input (hnode ▸ bound) found carries
  | assigned unrouted assigned => exact .assigned (hnode ▸ unrouted) (hnet ▸ assigned)

/-! ### Pins that are changed -/

/-- The pins that are changed, as the ones among all pins. -/
theorem changedPins_eq_filter (c : Cluster) :
  c.locals.changedPins = (List.range c.locals.pins.size).filter c.isChanged
  := by
  have hflag : ∀ x ∈ c.locals.pins.toList.zipIdx, x.1.changed = c.isChanged x.2 := by
    intro x hx
    have hs := List.mem_zipIdx_iff_getElem?.mp hx
    rw [Array.getElem?_toList] at hs
    rw [isChanged, hs]
    rfl
  have hids : (c.locals.pins.toList.zipIdx).map (·.2) = List.range c.locals.pins.size := by
    simp [List.range_eq_range']
  rw [Local.changedPins, List.filter_congr hflag, ← hids, List.filter_map]
  rfl

/-- The pins that are changed are listed. -/
theorem mem_changedPins : id ∈ c.locals.changedPins ↔ c.isChanged id := by
  rw [changedPins_eq_filter, List.mem_filter, List.mem_range, and_iff_right_iff_imp]
  intro hchanged
  by_contra hid
  rw [isChanged, Array.getElem?_eq_none (Nat.le_of_not_lt hid)] at hchanged
  cases hchanged

/-- The pins that are changed are counted. -/
theorem Ordered.length_changedPins (h : Ordered b c)
    (hok : propagateNets b g t c = .ok (count, c')) :
  count = c'.locals.changedPins.length
  := by
  have hall := h.propagated hok
  have hperm : c.locals.order.Perm (List.range c.locals.pins.size) := by
    rw [List.perm_ext_iff_of_nodup h.sorted.nodup List.nodup_range]
    intro id
    rw [h.complete id, List.mem_range]
  rw [hall.counted, hperm.countP_eq, changedPins_eq_filter, size_eq_of_silent_eq hall.same,
    List.countP_eq_length_filter]

/-- The pins that are changed are the inputs whose logical net is another one than before. -/
theorem Ordered.mem_changedPins_iff (h : Ordered b c)
    (hok : propagateNets b g t c = .ok (count, c')) :
  id ∈ c'.locals.changedPins
    ↔ (∃ p, b.pin id = .ok p ∧ p.kind.isInput) ∧ c.logicalAt id ≠ c'.logicalAt id
  := by rw [← h.isChanged_iff hok, mem_changedPins]

/-! ### Propagating nets at all -/

/-- What clustering assigns to a pin of a served cluster is found. -/
theorem Served.exists_assigned (h : Served g t c) (id : PinId) :
  ∃ nets, assigned t (c.pinNet id) = .ok nets
  := by
  cases hnet : c.pinNet id with
  | none => exact ⟨_, rfl⟩
  | some net =>
    have hentry := entry_of_lt (h.nets id net hnet)
    rw [assigned, NetTable.logicalOf?, NetTable.logicalOf, hentry]
    exact ⟨_, rfl⟩

/-- What a pin of a served cluster takes from outside is found. -/
theorem Served.exists_outside (h : Served g t c) (hid : id < b.pins.size) :
  ∃ nets, outside b g t c id = .ok nets
  := by
  rw [outside, BlockGraph.isClusterInput, BlockGraph.pin, entry_of_lt hid]
  simp only [ok_bind, pure_bind]
  split
  · split
    · rename_i node hnode
      rw [RoutingGraph.node, entry_of_lt (h.nodes id node hnode), ok_bind]
      split
      · exact ⟨_, rfl⟩
      · apply h.exists_assigned
    · apply h.exists_assigned
  · apply h.exists_assigned

/-- Nets can be propagated in an ordered cluster that is served. -/
theorem Ordered.exists_propagateNets_of_served (h : Ordered b c) (hserved : Served g t c) :
  ∃ count c', propagateNets b g t c = .ok (count, c')
  := by
  apply exists_propagatePins h.sorted
  intro id hid
  rw [h.complete id] at hid
  have hpin : id < b.pins.size := by rwa [← h.size]
  refine ⟨?_, ⟨_, entry_of_lt hpin⟩, ⟨_, Array.getElem?_eq_getElem hid⟩⟩
  obtain ⟨next, hnext⟩ := h.exists_dependency id hid
  cases next with
  | none =>
    rw [incoming_of_dependency_none hnext]
    apply hserved.exists_outside hpin
  | some q =>
    rw [incoming_of_copies hnext, Local.pin, entry_of_lt (h.lt_of_copies hnext)]
    exact ⟨_, rfl⟩

/-! ### Propagating nets again -/

/-- Clusters that differ in nets only are the same if their pins are. -/
theorem eq_of_silent_eq (hsame : c.silent = c'.silent) (hpins : c.locals.pins = c'.locals.pins) :
  c = c'
  := by
  obtain ⟨_, _, _, _, _, _, ⟨_, _, _⟩⟩ := c
  obtain ⟨_, _, _, _, _, _, ⟨_, _, _⟩⟩ := c'
  simp only [silent, Cluster.mk.injEq, Local.mk.injEq] at hsame hpins ⊢
  simp [hsame, hpins]

/-- Propagating nets in a steady cluster changes none of them. -/
theorem Ordered.propagateNets_of_steady (h : Ordered b c) (hsteady : Steady b g t c) :
  propagateNets b g t c = .ok (0, c.unchanged)
  := by
  obtain ⟨count, c', hok⟩ := h.exists_propagateNets hsteady rfl
  have hsame := (h.propagated hok).same.symm
  have hnets {id : PinId} {s s' : PinState} (hs : c.locals.pins[id]? = some s)
      (hs' : c'.locals.pins[id]? = some s') : s.net = s'.net ∧ s.logical = s'.logical := by
    apply hsteady.compare (h.steady hok) hsame rfl h.exists_dependency _ _ (h.grounded id) hs hs'
    · intros
      rfl
    · intros
      rfl
  have hquiet : c'.Quiet := by
    intro id
    by_contra hchanged
    obtain ⟨-, hne⟩ := (h.isChanged_iff hok).mp (eq_true_of_ne_false hchanged)
    obtain ⟨s, s', hs, hs', hlogical⟩ := exists_pins_of_logicalAt_ne hsame hne
    exact hlogical (hnets hs hs').2
  have hpins : c'.locals.pins = c.unchanged.locals.pins := by
    apply Array.ext_getElem?
    intro id
    simp only [unchanged, Array.getElem?_map]
    cases hs : c.locals.pins[id]? with
    | none =>
      rw [Array.getElem?_eq_none_iff, size_eq_of_silent_eq hsame] at hs
      rw [Option.map_none, Array.getElem?_eq_none hs]
    | some s =>
      obtain ⟨s', hs', hsilent⟩ := exists_pin_of_silent_eq hsame hs
      obtain ⟨hnet, hlogical⟩ := hnets hs hs'
      have hchanged := hquiet id
      rw [isChanged, hs'] at hchanged
      rw [hs', Option.map_some]
      cases s
      cases s'
      simp_all [PinState.silent]
  rw [hok, (h.eq_zero_iff hok).mpr hquiet]
  have hunchanged : c.unchanged.silent = c.silent := by
    apply silent_with_pins
    rw [Array.map_map]
    rfl
  rw [eq_of_silent_eq (hsame.symm.trans hunchanged.symm) hpins]

/-! ### The closed form -/

/-- Propagating nets in an ordered cluster computes the closed form. -/
theorem Ordered.closedForm (h : Ordered b c) (hok : propagateNets b g t c = .ok (count, c')) :
  ClosedForm b g t c c' count
  := by
  have hsame := (h.propagated hok).same
  have hsteady := h.steady hok
  constructor
  case same => exact hsame
  case ends =>
    intro id
    apply h.exists_end
  case logical =>
    intro id e hend
    have hend' : EndsAt b c' id e := by
      rwa [EndsAt, copies_congr hsame, dependency_congr hsame]
    apply (hsteady.enters hend').of_silent_eq hsame
  case counted => exact h.length_changedPins hok
  case changed =>
    intro id
    apply h.mem_changedPins_iff hok
  case again => apply (h.of_silent_eq hsame.symm).propagateNets_of_steady hsteady

/-- Once the drivers of a cluster are selected, whatever nets its pins then have, propagating nets
computes the closed form on any graph, and can only fail where a node or a net is not there. -/
theorem closed_form_of_selectLocalDrivers
    (hselect : (selectLocalDrivers b g₀ t₀).Gives c₀ () c₁) (hsame : c.silent = c₁.silent) :
  (Served g t c → ∃ count c', propagateNets b g t c = .ok (count, c'))
    ∧ ∀ count c', propagateNets b g t c = .ok (count, c') → ClosedForm b g t c c' count
  := by
  obtain ⟨pins, order, hpins, horder, rfl⟩ := gives_selectLocalDrivers_iff.mp hselect
  have h : Ordered b c := (ordered_of_selection hpins horder).of_silent_eq hsame.symm
  constructor
  · apply h.exists_propagateNets_of_served
  · intro count c'
    apply h.closedForm

/-! ### A net that is routed past clustering -/

/-- The two input pins of the block, after the other net has been routed to the first one. -/
def reroutedBypassGraph : RoutingGraph :=
  { bypassGraph with
    nodes := bypassGraph.nodes.modify 0 fun n => { n with net := some 1, logical := some 1 } }

/-- The block with the drivers selected, and the output of the buffer left with a net. -/
def staleBypass : Cluster :=
  { drivenBypass with
    locals := { drivenBypass.locals with
      pins := bypassPins.modify 3 fun s => { s with net := some 0, logical := some 0 } } }

/-- The routed net reaches the output of the buffer, and the net that clustering assigns to the
second input reaches the output of the table, which forwards it. -/
theorem closed_form_of_bypass :
  (selectLocalDrivers bypassBlock bypassGraph bypassNets).Gives bypassCluster () drivenBypass
    ∧ staleBypass.silent = drivenBypass.silent
    ∧ Served reroutedBypassGraph bypassNets staleBypass
    ∧ ∃ c', propagateNets bypassBlock reroutedBypassGraph bypassNets staleBypass = .ok (4, c')
      ∧ ClosedForm bypassBlock reroutedBypassGraph bypassNets staleBypass c' 4
      ∧ c'.logicalAt 3 = some 1 ∧ c'.logicalAt 5 = some 0
  := by
  have hserved : Served reroutedBypassGraph bypassNets staleBypass := by
    constructor
    · intro id node hnode
      have hmem : (id, node) ∈ [(0, 0), (1, 1)] := mem_of_lookup_eq_some hnode
      have hnodes : ∀ x ∈ [(0, 0), (1, 1)], x.2 < reroutedBypassGraph.size := by
        decide
      apply hnodes _ hmem
    · intro id net hnet
      have hmem := Array.mem_of_getElem? (Option.join_eq_some_iff.mp hnet)
      have hnets : ∀ x ∈ staleBypass.pinNets, ∀ net ∈ x, net < bypassNets.nets.size := by
        decide
      apply hnets _ hmem net rfl
  have hsame : staleBypass.silent = drivenBypass.silent := by
    decide +kernel
  obtain ⟨hgives, hform⟩ := closed_form_of_selectLocalDrivers selectLocalDrivers_bypass hsame
  obtain ⟨count, c', hok⟩ := hgives hserved
  have hvalues : (propagateNets bypassBlock reroutedBypassGraph bypassNets staleBypass).map
      (fun r => (r.1, r.2.logicalAt 3, r.2.logicalAt 5)) = .ok (4, some 1, some 0) := by
    decide
  rw [hok] at hvalues
  simp only [Except.map, Except.ok.injEq, Prod.mk.injEq] at hvalues
  obtain ⟨rfl, hbuffer, htable⟩ := hvalues
  use selectLocalDrivers_bypass, hsame, hserved, c', hok, hform _ _ hok

end RoutingFabric.Cluster
