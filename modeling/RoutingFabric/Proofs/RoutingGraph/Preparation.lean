import RoutingFabric.Proofs.RoutingGraph.Annotation
import RoutingFabric.Proofs.Safety

/-!
# Faults of preparing a graph

Drivers of a graph are looked up and nodes are given them without a fault, unless a table of the
drivers that a node declares exceeds the memory.
-/

namespace RoutingFabric.RoutingGraph

variable {P : Fault → Prop} {g : RoutingGraph} {id : NodeId}

/-- A node of the graph is changed without a fault. -/
theorem faultsIn_modify {f : Node → Node} (hid : id < g.size) : FaultsIn P (g.modify id f) := by
  rw [modify, alter_of_lt f hid]
  apply faultsIn_ok

/-- A node of the graph is given its drivers without a fault. -/
theorem faultsIn_assignTo {i : NodeId × List Driver} (hi : i.1 < g.size) :
  (assignTo i).FaultsIn P g
  := by
  apply Phase.faultsIn_state_bind
  apply Phase.faultsIn_lift_bind (faultsIn_entry hi)
  rintro n -
  split
  · apply Phase.faultsIn_lift_bind (faultsIn_modify hi)
    rintro g' -
    apply faultsIn_ok
  · apply faultsIn_fail

/-- The only fault in giving nodes their drivers is that a table of them exceeds the memory. -/
theorem faultsIn_buildDriverIndex :
  buildDriverIndex.FaultsIn (fun e => e = .tooLarge ∧ ∃ n ∈ g.nodes,
    tableLimit < driverBytes * n.fanIn) g
  := by
  apply Phase.faultsIn_state_bind
  split
  · rename_i hany
    apply faultsIn_fault
    obtain ⟨n, hn, hlarge⟩ := Array.any_eq_true'.mp hany
    exact ⟨rfl, n, hn, of_decide_eq_true hlarge⟩
  · split
    · apply faultsIn_fail
    · apply Phase.FaultsIn.bind
      · rw [assignDrivers_eq]
        apply Phase.faultsIn_each (I := fun s => s.size = g.size) rfl
        rintro ⟨id, drivers⟩ hi s hs
        have hid : id < g.size := by
          rw [← g.size_driverTable]
          apply (Array.getElem?_eq_some_iff.mp (mem_map_zipIdx_iff.mp hi)).1
        constructor
        · apply faultsIn_assignTo
          rw [hs]
          apply hid
        · intro s' h
          obtain ⟨n, -, -, hmodify⟩ := gives_assignTo h
          rw [size_of_modify hmodify, hs]
      · rintro _ s' -
        apply faultsIn_ok

/-- A node of the graph comes to know the switch of its drivers without a fault. -/
theorem faultsIn_identifyDriverSwitch (hid : id < g.size) :
  FaultsIn P (g.identifyDriverSwitch id)
  := by
  apply (faultsIn_entry hid).bind
  rintro n -
  split
  · apply faultsIn_fail
  · split
    · apply faultsIn_modify hid
    · apply faultsIn_fail

/-- All nodes come to know the switches of their drivers without a fault. -/
theorem faultsIn_identifyDriverSwitches : identifyDriverSwitches.FaultsIn P g := by
  apply Phase.faultsIn_state_bind
  apply Phase.faultsIn_each (I := fun s => s.size = g.size) rfl
  intro id hid s hs
  have hid : id < s.size := by
    rw [hs]
    apply List.mem_range.mp hid
  constructor
  · apply Phase.faultsIn_state_bind
    apply Phase.faultsIn_lift_bind (faultsIn_identifyDriverSwitch hid)
    rintro g' -
    apply faultsIn_ok
  · intro s' h
    obtain ⟨driverSwitch, hmodify⟩ := gives_identifyAt h
    rw [size_of_modify hmodify, hs]

end RoutingFabric.RoutingGraph
