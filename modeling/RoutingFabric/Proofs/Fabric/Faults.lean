import Mathlib.Algebra.Ring.Nat
import RoutingFabric.Proofs.Fabric.Rounds
import RoutingFabric.Proofs.RoutingGraph.Faults

/-!
# Faults of rounds

From a steady fabric a round is stopped only where links lead in a loop. In a round each output that
is moved to the graph is counted once at most for each node, and each pin of a cluster once.
-/

namespace RoutingFabric.Fabric

open Cluster RoutingGraph

variable {g g' : RoutingGraph} {b : BlockGraph} {c : Cluster} {node : NodeId} {pin : PinId}
variable {bindings : List (PinId × NodeId)} {count : Nat} {f f' f₁ : Fabric} {ids : List Nat}

/-! ### Moving outputs to the graph -/

/-- A pin is moved to the graph, unless following links has no end. -/
theorem faultsIn_exportPin {p : BlockGraph.Pin} {s : PinState} (hg : g.Wired)
    (hp : b.pin pin = .ok p) (hs : c.locals.pin pin = .ok s) (hnode : node < g.size) :
  FaultsIn g.Unending (exportPin b c g pin node)
  := by
  rw [exportPin, hp, ok_bind]
  split
  · apply faultsIn_ok
  · rw [hs, ok_bind]
    split
    · apply faultsIn_ok
    · rename_i logical _
      obtain ⟨here, g', hgive⟩ : ∃ here g', g.giveLogical (some logical) [node]
          = .ok (here, g') := by
        apply exists_giveLogical
        intro q hq
        rw [List.mem_singleton.mp hq]
        apply hnode
      obtain ⟨hsame, -⟩ := logicalAt_of_giveLogical hgive
      rw [hgive, ok_bind, unending_congr hsame.symm]
      apply FaultsIn.bind
      · apply faultsIn_forwardLogical (hg.of_silent_eq hsame.symm)
        rw [size_eq_of_view_eq hsame]
        apply hnode
      · rintro ⟨beyond, g''⟩ -
        apply faultsIn_ok

/-- No node is counted twice where a logical net is given to a node and forwarded from there. -/
theorem count_le_of_forwardLogical {logical : LogicalId} {g'' : RoutingGraph} {here beyond : Nat}
    (hgive : g.giveLogical (some logical) [node] = .ok (here, g'))
    (hforward : g'.forwardLogical node = .ok (beyond, g'')) :
  here + beyond ≤ g.size
  := by
  have hhere := unlike_of_giveLogical hgive
  have hbeyond := unlike_of_forwardLogical hforward
  -- what is forwarded is the logical net that the node has just been given
  obtain ⟨-, hlogical⟩ := logicalAt_of_giveLogical hgive
  rw [hlogical node, if_pos (List.mem_singleton.mpr rfl)] at hbeyond
  have hle : g.unlike (some logical) ≤ g.size := unlike_le
  omega

/-- No node is counted twice where a pin is moved to the graph. -/
theorem count_le_of_exportPin (h : exportPin b c g pin node = .ok (count, g')) :
  count ≤ g.size
  := by
  obtain ⟨p, -, h⟩ := bind_eq_ok_iff.mp h
  split at h
  · cases pure_eq_ok_iff.mp h
    apply Nat.zero_le
  · obtain ⟨s, -, h⟩ := bind_eq_ok_iff.mp h
    split at h
    · cases pure_eq_ok_iff.mp h
      apply Nat.zero_le
    · obtain ⟨⟨here, g''⟩, hgive, h⟩ := bind_eq_ok_iff.mp h
      obtain ⟨⟨beyond, _⟩, hforward, h⟩ := bind_eq_ok_iff.mp h
      cases pure_eq_ok_iff.mp h
      apply count_le_of_forwardLogical hgive hforward

/-- Pins are moved to the graph, unless following links has no end. -/
theorem faultsIn_exportPins (hg : g.Wired) (hbound : Bound b c g bindings) :
  FaultsIn g.Unending (exportPins b c g bindings)
  := by
  induction bindings generalizing g with
  | nil => apply faultsIn_ok
  | cons x bindings ih =>
    obtain ⟨pin, node⟩ := x
    obtain ⟨⟨p, hp⟩, ⟨s, hs⟩, hnode⟩ := hbound (pin, node) List.mem_cons_self
    apply (faultsIn_exportPin hg hp hs hnode).bind
    rintro ⟨here, g'⟩ hpin
    obtain ⟨hsame, -⟩ := logicalAt_of_exportPin hg hp hpin
    rw [unending_congr hsame.symm]
    apply FaultsIn.bind
    · apply ih (hg.of_silent_eq hsame.symm)
      intro x hx
      rw [size_eq_of_view_eq hsame]
      apply hbound x (List.mem_cons_of_mem _ hx)
    · rintro ⟨beyond, g''⟩ -
      apply faultsIn_ok

/-- No node is counted more than once for each pin that is moved to the graph. -/
theorem count_le_of_exportPins (hg : g.Wired) (hbound : Bound b c g bindings)
    (h : exportPins b c g bindings = .ok (count, g')) :
  count ≤ bindings.length * g.size
  := by
  induction bindings generalizing g count with
  | nil =>
    cases pure_eq_ok_iff.mp h
    apply Nat.zero_le
  | cons x bindings ih =>
    obtain ⟨pin, node⟩ := x
    obtain ⟨⟨here, g''⟩, hpin, h⟩ := bind_eq_ok_iff.mp h
    obtain ⟨⟨beyond, _⟩, hrest, h⟩ := bind_eq_ok_iff.mp h
    cases pure_eq_ok_iff.mp h
    obtain ⟨⟨p, hp⟩, -⟩ := hbound (pin, node) List.mem_cons_self
    obtain ⟨hsame, -⟩ := logicalAt_of_exportPin hg hp hpin
    have hsize := size_eq_of_view_eq hsame
    have hbeyond := ih (hg.of_silent_eq hsame.symm) (by
      intro x hx
      rw [hsize]
      apply hbound x (List.mem_cons_of_mem _ hx)) hrest
    rw [hsize] at hbeyond
    calc
      here + beyond ≤ g.size + bindings.length * g.size :=
        Nat.add_le_add (count_le_of_exportPin hpin) hbeyond
      _ = (bindings.length + 1) * g.size := by rw [Nat.succ_mul, Nat.add_comm]

/-- The number of bindings of clusters. -/
def bindingsIn (cs : List Cluster) : Nat := (cs.map (·.locals.bindings.length)).sum

/-- Clusters are moved to the graph, unless following links has no end. -/
theorem Primed.faultsIn_exportClusters {cs : List Cluster} (hf : f.Primed)
    (hg : g.silent = f.graph.silent) (hcs : ∀ c ∈ cs, c ∈ f.clusters) :
  FaultsIn f.graph.Unending (exportClusters f g cs)
  := by
  induction cs generalizing g with
  | nil => apply faultsIn_ok
  | cons c cs ih =>
    obtain ⟨hc, hcs⟩ := List.forall_mem_cons.mp hcs
    obtain ⟨i, hi⟩ := Array.mem_iff_getElem?.mp hc
    obtain ⟨b, hb, hprimed⟩ := hf.clusters i c hi
    rw [← size_eq_of_view_eq hg] at hprimed
    have hwired := hf.wired.of_silent_eq hg.symm
    have hbound := bound_of_primed hprimed
    rw [exportClusters, hb, ok_bind]
    apply FaultsIn.bind
    · rw [unending_congr hg.symm]
      apply faultsIn_exportPins hwired hbound
    · rintro ⟨here, g'⟩ hpins
      obtain ⟨hsame, -⟩ := logicalAt_of_exportPins hwired hbound (pinLogical_eq hi) hpins
      apply (ih (hsame.trans hg) hcs).bind
      rintro ⟨beyond, g''⟩ -
      apply faultsIn_ok

/-- No node is counted more than once for each binding of a cluster. -/
theorem Primed.count_le_of_exportClusters {cs : List Cluster} (hf : f.Primed)
    (hg : g.silent = f.graph.silent) (hcs : ∀ c ∈ cs, c ∈ f.clusters)
    (h : exportClusters f g cs = .ok (count, g')) :
  count ≤ bindingsIn cs * f.graph.size
  := by
  induction cs generalizing g count with
  | nil =>
    cases pure_eq_ok_iff.mp h
    apply Nat.zero_le
  | cons c cs ih =>
    obtain ⟨hc, hcs⟩ := List.forall_mem_cons.mp hcs
    obtain ⟨i, hi⟩ := Array.mem_iff_getElem?.mp hc
    obtain ⟨b, hb, h⟩ := bind_eq_ok_iff.mp h
    obtain ⟨⟨here, g''⟩, hpins, h⟩ := bind_eq_ok_iff.mp h
    obtain ⟨⟨beyond, _⟩, hrest, h⟩ := bind_eq_ok_iff.mp h
    cases pure_eq_ok_iff.mp h
    have hprimed := hf.cluster ⟨hi, hb⟩
    have hsize := size_eq_of_view_eq hg
    rw [← hsize] at hprimed
    have hwired := hf.wired.of_silent_eq hg.symm
    have hbound := bound_of_primed hprimed
    obtain ⟨hsame, -⟩ := logicalAt_of_exportPins hwired hbound (pinLogical_eq hi) hpins
    have hhere := count_le_of_exportPins hwired hbound hpins
    rw [hsize] at hhere
    calc
      here + beyond ≤ c.locals.bindings.length * f.graph.size + bindingsIn cs * f.graph.size :=
        Nat.add_le_add hhere (ih (hsame.trans hg) hcs hrest)
      _ = bindingsIn (c :: cs) * f.graph.size := by
        rw [← Nat.add_mul, bindingsIn, bindingsIn, List.map_cons, List.sum_cons]

/-- Outputs are moved to the graph, unless following links has no end. -/
theorem Primed.faultsIn_exportOutputs (hf : f.Primed) :
  FaultsIn f.graph.Unending f.exportOutputs
  := by
  apply FaultsIn.bind
  · apply hf.faultsIn_exportClusters rfl
    intro c hc
    apply Array.mem_toList_iff.mp hc
  · rintro ⟨count, g⟩ -
    apply faultsIn_ok

/-- No node is counted more than once for each binding. -/
theorem Primed.count_le_of_exportOutputs (hf : f.Primed) (h : f.exportOutputs = .ok (count, f')) :
  count ≤ bindingsIn f.clusters.toList * f.graph.size
  := by
  obtain ⟨⟨count', g⟩, hexport, h⟩ := bind_eq_ok_iff.mp h
  cases pure_eq_ok_iff.mp h
  apply hf.count_le_of_exportClusters rfl _ hexport
  intro c hc
  apply Array.mem_toList_iff.mp hc

/-! ### Propagating nets in clusters -/

/-- The number of pins of the cluster at an index. -/
def pinsAt (f : Fabric) (i : Nat) : Nat := (f.clusters[i]?).elim 0 (·.locals.pins.size)

/-- The number of pins of clusters. -/
def pinsIn (cs : List Cluster) : Nat := (cs.map (·.locals.pins.size)).sum

/-- The numbers of pins do not depend on nets. -/
theorem pinsAt_congr (h : f.silent = f'.silent) : f.pinsAt = f'.pinsAt := by
  apply congr_of_silent_eq pinsAt _ h
  intro f
  funext i
  rw [pinsAt, pinsAt, silent, Array.getElem?_map]
  cases f.clusters[i]? with
  | none => rfl
  | some c => apply Array.size_map

/-- The pins of the clusters at all indices are those of all clusters. -/
theorem sum_pinsAt (f : Fabric) : (f.clusterIds.map f.pinsAt).sum = pinsIn f.clusters.toList := by
  rw [pinsIn]
  congr 1
  apply List.ext_getElem
  · simp [clusterIds]
  · intro i hi _
    rw [List.length_map, clusterIds, List.length_range] at hi
    simp [clusterIds, pinsAt, hi]

/-- Propagating nets in the clusters of a list counts no more than the pins of each. -/
theorem Primed.count_le_of_propagateClusters (hf : f.Primed)
    (h : f.propagateClusters ids = .ok (count, f')) :
  count ≤ (ids.map f.pinsAt).sum
  := by
  induction ids generalizing f count with
  | nil =>
    cases pure_eq_ok_iff.mp h
    apply Nat.zero_le
  | cons i ids ih =>
    obtain ⟨⟨here, f''⟩, hcluster, h⟩ := bind_eq_ok_iff.mp h
    obtain ⟨⟨beyond, _⟩, hrest, h⟩ := bind_eq_ok_iff.mp h
    cases pure_eq_ok_iff.mp h
    obtain ⟨b, c, c', hc, hok, rfl⟩ := propagateCluster_eq_ok_iff.mp hcluster
    have hprimed := hf.cluster hc
    have hsame := silent_of_modify hc.1 (hprimed.ordered.propagated hok).same
    have hhere : here ≤ f.pinsAt i := by
      rw [pinsAt, hc.1]
      apply hprimed.ordered.count_le hok
    have hbeyond := ih (hf.of_silent_eq hsame.symm) hrest
    rw [pinsAt_congr hsame] at hbeyond
    rw [List.map_cons, List.sum_cons]
    apply Nat.add_le_add hhere hbeyond

/-- Propagating nets in all clusters counts no pin twice. -/
theorem Primed.count_le_of_propagateAll (hf : f.Primed) (h : f.propagateAll = .ok (count, f')) :
  count ≤ pinsIn f.clusters.toList
  := by
  rw [← sum_pinsAt]
  apply hf.count_le_of_propagateClusters h

end RoutingFabric.Fabric
