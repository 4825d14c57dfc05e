import RoutingFabric.Proofs.Cluster.Preparation
import RoutingFabric.Proofs.Fabric.Run
import RoutingFabric.Proofs.RoutingGraph.Preparation

/-!
# Faults of preparation

Preparing a fabric finds most ids that point nowhere before it follows them, and reports them as
problems. What it does not look for are tables of drivers that exceed the memory, blocks that are
above themselves, and cluster types without a root or with a root that lists pins which are not
there. A fault that stops preparation is always one of these.
-/

namespace RoutingFabric.Fabric

open Cluster RoutingGraph

variable {f f' : Fabric} {id : Nat}

/-! ### Fabrics -/

/-- What preparation does not look for, with the fault that stops it there. -/
inductive Flawed (f : Fabric) : Fault → Prop where
  /-- a table of the drivers that a node declares exceeds the memory -/
  | fanIn (n : Node) (hn : n ∈ f.graph.nodes) (hfanIn : tableLimit < driverBytes * n.fanIn) :
    Flawed f .tooLarge
  /-- a block of a type is above itself -/
  | unending (b : BlockGraph) (hb : b ∈ f.blockGraphs) (id : BlockId)
      (hid : Relation.TransGen b.Above id id) :
    Flawed f .endless
  /-- the type of a cluster has no root, or its root lists a pin that is not there -/
  | root (c : Cluster) (hc : c ∈ f.clusters) (b : BlockGraph) (hb : f.blockGraphOf c = .ok b)
      (hroot : ¬ b.Rooted) :
    Flawed f .outOfRange

/-- Faults of a phase on the graph are those of the phase. -/
theorem faultsIn_onGraph {α : Type} {P : Fault → Prop} {p : Phase RoutingGraph α}
    (hp : p.FaultsIn P f.graph) :
  (onGraph p).FaultsIn P f
  := hp

/-- The fault of a name without an end in a type is one of the fabric. -/
theorem flawed_of_unending {b : BlockGraph} (hb : b ∈ f.blockGraphs) {e : Fault}
    (he : b.Unending e) :
  f.Flawed e
  := by
  obtain ⟨rfl, id, hid⟩ := he
  apply Flawed.unending b hb id hid

/-- The types are checked without faults, unless a name has no end. -/
theorem faultsIn_validate :
  FaultsIn f.Flawed (f.blockGraphs.toList.forM fun b => b.validate)
  := by
  apply faultsIn_forM
  intro b hb
  apply BlockGraph.faultsIn_validate.imp
  intro e he
  apply flawed_of_unending (Array.mem_toList_iff.mp hb) he

/-- The fault of the type of a cluster is one of the fabric. -/
theorem flawed_of_type {c : Cluster} (hc : c ∈ f.clusters) {b : BlockGraph}
    (hb : f.blockGraphOf c = .ok b) {e : Fault} (he : FaultOfType b e) :
  f.Flawed e
  := by
  rcases he with he | ⟨rfl, hroot⟩
  · apply flawed_of_unending _ he
    apply Array.mem_of_getElem? (entry_eq_ok_iff.mp hb)
  · apply Flawed.root c hc b hb hroot

/-- A cluster is of the type that it is of in the fabric before. -/
theorem blockGraphOf_congr (hblocks : f'.blockGraphs = f.blockGraphs)
    (htypes : f'.clusters.map (·.blockGraph) = f.clusters.map (·.blockGraph)) {c' : Cluster}
    (hc' : f'.clusters[id]? = some c') :
  ∃ c, f.clusters[id]? = some c ∧ f'.blockGraphOf c' = f.blockGraphOf c
  := by
  obtain ⟨c, hc, htype⟩ := exists_getElem?_of_map_eq htypes hc'
  use c, hc
  rw [blockGraphOf, blockGraphOf, hblocks, htype]

/-- Preparing a cluster changes neither the types nor which of them the cluster is of. -/
theorem types_of_prepareCluster (h : (prepareCluster id).Gives f () f') :
  f'.blockGraphs = f.blockGraphs
    ∧ f'.clusters.map (·.blockGraph) = f.clusters.map (·.blockGraph)
  := by
  obtain ⟨c, b, c', hc, -, hprepare, rfl⟩ := gives_prepareCluster_iff.mp h
  constructor
  · rfl
  · apply map_modify_of_eq hc (blockGraph_of_prepare hprepare)

/-- A cluster is prepared without faults other than those of its type. -/
theorem faultsIn_prepareCluster (hclosed : ∀ b ∈ f.blockGraphs, b.Closed)
    (hid : id < f.clusters.size) :
  (prepareCluster id).FaultsIn (fun e => ∃ c b, f.clusters[id]? = some c
    ∧ f.blockGraphOf c = .ok b ∧ FaultOfType b e) f
  := by
  apply Phase.faultsIn_state_bind
  apply Phase.faultsIn_lift_bind (faultsIn_entry hid)
  intro c hc
  rw [entry_eq_ok_iff] at hc
  split
  · rename_i b hb
    apply Phase.faultsIn_state_bind
    apply Phase.faultsIn_lift_bind (faultsIn_entry hid)
    intro c' hc'
    rw [entry_eq_ok_iff, hc] at hc'
    cases hc'
    apply (faultsIn_prepare (hclosed b (Array.mem_of_getElem? hb))).imp
    intro e he
    refine ⟨c, b, hc, ?_, he⟩
    rw [blockGraphOf, entry_eq_ok_iff]
    apply hb
  · apply faultsIn_fail

/-- Clusters are prepared without faults other than those of their types. -/
theorem faultsIn_prepareClusters (hclosed : ∀ b ∈ f.blockGraphs, b.Closed) :
  (Phase.each prepareCluster f.clusterIds).FaultsIn (fun e => ∃ c ∈ f.clusters, ∃ b,
    f.blockGraphOf c = .ok b ∧ FaultOfType b e) f
  := by
  apply Phase.faultsIn_each (I := fun s => s.blockGraphs = f.blockGraphs
    ∧ s.clusters.map (·.blockGraph) = f.clusters.map (·.blockGraph)) ⟨rfl, rfl⟩
  rintro id hid s ⟨hblocks, htypes⟩
  have hsize : s.clusters.size = f.clusters.size := by
    simpa using congrArg Array.size htypes
  constructor
  · apply Phase.FaultsIn.imp
    · apply faultsIn_prepareCluster
      · rw [hblocks]
        apply hclosed
      · rw [hsize]
        apply List.mem_range.mp hid
    · rintro e ⟨c', b, hc', hb, he⟩
      obtain ⟨c, hc, htype⟩ := blockGraphOf_congr hblocks htypes hc'
      rw [htype] at hb
      exact ⟨c, Array.mem_of_getElem? hc, b, hb, he⟩
  · intro s' h
    obtain ⟨hblocks', htypes'⟩ := types_of_prepareCluster h
    exact ⟨hblocks'.trans hblocks, htypes'.trans htypes⟩

/-- A fabric is prepared without faults other than those that come from a flaw of it. -/
theorem faultsIn_prepare_of_flawed : prepare.FaultsIn f.Flawed f := by
  apply Phase.FaultsIn.bind
  · apply faultsIn_onGraph
    apply Phase.faultsIn_state_bind
    apply Phase.FaultsIn.bind
    · apply faultsIn_ok
    · intro _ g hg
      obtain rfl := Phase.gives_put_iff.mp hg
      apply Phase.FaultsIn.bind
      · apply faultsIn_buildDriverIndex.imp
        rintro e ⟨rfl, n, hn, hfanIn⟩
        apply Flawed.fanIn n hn hfanIn
      · rintro _ g -
        apply faultsIn_identifyDriverSwitches
  · intro _ s hs
    obtain ⟨g, -, rfl⟩ := gives_onGraph_iff.mp hs
    apply Phase.faultsIn_state_bind
    apply Phase.faultsIn_lift_bind faultsIn_validate
    intro _ hvalid
    apply Phase.FaultsIn.bind
    · have hclosed : ∀ b ∈ f.blockGraphs, b.Closed := by
        intro b hb
        apply BlockGraph.closed_of_validate
        apply forM_eq_ok_iff.mp hvalid b (Array.mem_toList_iff.mpr hb)
      apply (faultsIn_prepareClusters (f := { f with graph := g }) hclosed).imp
      rintro e ⟨c, hc, b, hb, he⟩
      apply flawed_of_type (f := f) hc hb he
    · rintro _ s' -
      apply faultsIn_ok

/-- In a prepared fabric the root of each type that a cluster is of is there, with all the pins that
it lists. -/
theorem rooted_of_prepare (h : prepare.Gives f () f') :
  ∀ c ∈ f'.clusters, ∃ b, f'.blockGraphOf c = .ok b ∧ b.Rooted
  := by
  intro c hc
  obtain ⟨b, c₀, hb, hprepare⟩ := (checks_of_prepare h).2 c hc
  exact ⟨b, hb, Cluster.rooted_of_prepare hprepare⟩

/-- Preparation is stopped by a problem, unless the fabric has a flaw that is not looked for, and no
fabric is prepared in which the root of a type is not there or lists a pin that is not. -/
theorem flawed_of_fault_of_prepare (f : Fabric) :
  (∀ e, (prepare.run f).outcome = .error (.fault e) → f.Flawed e)
    ∧ ∀ f', prepare.Gives f () f' → ∀ c ∈ f'.clusters, ∃ b, f'.blockGraphOf c = .ok b ∧ b.Rooted
  := by
  constructor
  · apply faultsIn_prepare_of_flawed.property
  · intro f' h
    apply rooted_of_prepare h

/-- A cluster whose type lists a pin of the root that is not there. -/
def danglingFabric : Fabric where
  grid := ⟨2, 2⟩
  blockGraphs := #[{ name := "clb", blocks := #[{ name := "clb", type := "clb", pins := [7] }] }]
  clusters := #[{ name := "c0", blockGraph := 0, place := ⟨1, 1⟩ }]

/-- Preparation follows the id of the pin that is not there, although the type that lists it is
found to be valid before. Nothing in the fabric is derived, so it is what a snapshot can hold. -/
theorem fault_of_danglingFabric :
  danglingFabric.bare = danglingFabric
    ∧ danglingFabric.blockGraphs.toList.forM (fun b => b.validate) = .ok ()
    ∧ (prepare.run danglingFabric).outcome = .error (.fault .outOfRange)
  := by
  refine ⟨?_, ?_, ?_⟩
  · cbv
  · decide +kernel
  · decide +kernel

/-- The flaw of the cluster is that the root of its type lists a pin that is not there. -/
theorem flawed_danglingFabric :
  (prepare.run danglingFabric).outcome = .error (.fault .outOfRange)
    ∧ danglingFabric.Flawed .outOfRange
  := by
  have hfault : (prepare.run danglingFabric).outcome = .error (.fault .outOfRange) := by
    decide +kernel
  exact ⟨hfault, (flawed_of_fault_of_prepare danglingFabric).1 _ hfault⟩

end RoutingFabric.Fabric
