import RoutingFabric.Fabric.Basic
import RoutingFabric.Proofs.Cluster.Round
import RoutingFabric.Proofs.RoutingGraph.Links

/-!
# Paths through clusters

A logical net leaves a cluster at an output, follows links to the inputs of clusters that are bound
to nodes it reaches, and passes a cluster from an input to the outputs whose chains end there. So
inputs of clusters depend on one another, in a way that the nets themselves do not matter for. Where
the pins and nodes can be put on levels that rise from input to output, no input depends on itself.
-/

namespace RoutingFabric

/-- A pin of one of the clusters of a fabric. -/
structure PinAt where
  cluster : Nat
  pin : PinId
  deriving DecidableEq

namespace Fabric

open Relation

/-- The fabric without the logical nets of nodes and without the nets of pins. -/
def silent (f : Fabric) : Fabric :=
  { f with graph := f.graph.silent, clusters := f.clusters.map Cluster.silent }

variable (f : Fabric)

/-- The cluster at an index, and its type. -/
def HasCluster (i : Nat) (b : BlockGraph) (c : Cluster) : Prop :=
  f.clusters[i]? = some c ∧ f.blockGraphOf c = .ok b

/-- The logical net of a pin. -/
def pinLogical (p : PinAt) : Option LogicalId := (f.clusters[p.cluster]?).bind (·.logicalAt p.pin)

/-- The pin is an input of its cluster. -/
def IsBoundaryInput (p : PinAt) : Prop :=
  ∃ b c, f.HasCluster p.cluster b c ∧ b.isClusterInput p.pin = .ok true

/-- The pin is an input of its cluster that is bound to the node. -/
def InputOn (p : PinAt) (node : NodeId) : Prop :=
  ∃ b c, f.HasCluster p.cluster b c ∧ b.isClusterInput p.pin = .ok true
    ∧ c.locals.nodeOf p.pin = some node

/-- The pin is an output of its cluster that is bound to the node. -/
def OutputOn (p : PinAt) (node : NodeId) : Prop :=
  ∃ b c s, f.HasCluster p.cluster b c ∧ (p.pin, node) ∈ c.locals.bindings ∧ b.pin p.pin = .ok s
    ∧ ¬ s.kind.isInput

/-- The one node is the other, or links lead from it to the other. -/
def Reaches (p q : NodeId) : Prop := ReflTransGen f.graph.Linked p q

/-- The node is bound to the output, or reached from the node bound to it. -/
def Covers (p : PinAt) (q : NodeId) : Prop := ∃ node, f.OutputOn p node ∧ f.Reaches node q

/-- The chain of drivers and forwarding outputs from the one pin on ends at the other. -/
def EndsAt (p e : PinAt) : Prop :=
  e.cluster = p.cluster ∧ ∃ b c, f.HasCluster p.cluster b c
    ∧ ReflTransGen (Cluster.Copies b c c.locals.pins) p.pin e.pin
    ∧ Cluster.dependency b c c.locals.pins e.pin = .ok none

/-- The one input of a cluster is bound to a node that is covered by an output whose chain ends at
the other input of a cluster. -/
def DependsOn (i j : PinAt) : Prop :=
  ∃ o node, f.InputOn i node ∧ f.Covers o node ∧ f.EndsAt o j ∧ f.IsBoundaryInput j

/-- The inputs of a cluster. -/
def boundaryInputsOf (i : Nat) (c : Cluster) : List PinAt :=
  match f.blockGraphs[c.blockGraph]? with
  | some b => ((List.range b.pins.size).filter fun id => b.isClusterInput id = .ok true).map (⟨i, ·⟩)
  | none => []

/-- The inputs of all clusters. -/
def boundaryInputs : List PinAt :=
  f.clusters.toList.zipIdx.flatMap fun (c, i) => f.boundaryInputsOf i c

variable {f} {f' : Fabric} {p e i j : PinAt} {q node : NodeId}

/-! ### Inputs of clusters -/

/-- A pin of a cluster that is found is found at its id. -/
theorem lt_of_isClusterInput {b : BlockGraph} {id : PinId} {isInput : Bool}
    (h : b.isClusterInput id = .ok isInput) :
  id < b.pins.size
  := by
  obtain ⟨s, hs, -⟩ := bind_eq_ok_iff.mp h
  apply (Array.getElem?_eq_some_iff.mp (entry_eq_ok_iff.mp hs)).1

/-- The list of inputs holds all of them. -/
theorem mem_boundaryInputs_iff : p ∈ f.boundaryInputs ↔ f.IsBoundaryInput p := by
  simp only [boundaryInputs, List.mem_flatMap, Prod.exists, List.mem_zipIdx_iff_getElem?,
    Array.getElem?_toList, IsBoundaryInput, HasCluster, blockGraphOf, entry_eq_ok_iff]
  constructor
  · rintro ⟨c, i, hc, hp⟩
    rw [boundaryInputsOf] at hp
    split at hp
    · rename_i b hb
      obtain ⟨id, hid, rfl⟩ := List.mem_map.mp hp
      obtain ⟨-, hinput⟩ := List.mem_filter.mp hid
      exact ⟨b, c, ⟨hc, hb⟩, by simpa using hinput⟩
    · cases hp
  · rintro ⟨b, c, ⟨hc, hb⟩, hinput⟩
    use c, p.cluster, hc
    simp only [boundaryInputsOf, hb]
    apply List.mem_map.mpr
    use p.pin
    simp [lt_of_isClusterInput hinput, hinput]

/-- An input that is bound is an input. -/
theorem InputOn.isBoundaryInput (h : f.InputOn p node) : f.IsBoundaryInput p := by
  obtain ⟨b, c, hc, hinput, -⟩ := h
  use b, c

/-- A fabric has one cluster at an index. -/
theorem HasCluster.unique {k : Nat} {b b' : BlockGraph} {c c' : Cluster} (h : f.HasCluster k b c)
    (h' : f.HasCluster k b' c') :
  b = b' ∧ c = c'
  := by
  obtain ⟨hc, hb⟩ := h
  obtain ⟨hc', hb'⟩ := h'
  rw [hc] at hc'
  cases hc'
  rw [hb] at hb'
  cases hb'
  exact ⟨rfl, rfl⟩

/-- The logical net of a pin is the one that it carries in its cluster. -/
theorem pinLogical_eq {k : Nat} {c : Cluster} (hc : f.clusters[k]? = some c) (pin : PinId) :
  f.pinLogical ⟨k, pin⟩ = c.logicalAt pin
  := by
  rw [pinLogical, hc, Option.bind_some]

/-! ### Fabrics that differ in nets -/

/-- What does not depend on nets is the same in fabrics that differ in nets only. -/
theorem congr_of_silent_eq {α : Type} (F : Fabric → α) (hF : ∀ f, F f.silent = F f)
    (h : f.silent = f'.silent) :
  F f = F f'
  := by
  rw [← hF, h, hF]

/-- Fabrics that differ in nets only have the same types of clusters. -/
theorem blockGraphs_congr (h : f.silent = f'.silent) : f.blockGraphs = f'.blockGraphs :=
  congr_of_silent_eq (·.blockGraphs) (fun _ => rfl) h

/-- Fabrics that differ in nets only have the same nets to route. -/
theorem nets_congr (h : f.silent = f'.silent) : f.nets = f'.nets :=
  congr_of_silent_eq (·.nets) (fun _ => rfl) h

/-- Fabrics that differ in nets only have graphs that do. -/
theorem graph_silent_eq (h : f.silent = f'.silent) : f.graph.silent = f'.graph.silent := by
  injection h

/-- Fabrics that differ in nets only have clusters that do, at the same places. -/
theorem clusters_silent_eq (h : f.silent = f'.silent) :
  f.clusters.map Cluster.silent = f'.clusters.map Cluster.silent
  := by
  injection h

/-- Fabrics that differ in nets only have clusters that do. -/
theorem HasCluster.of_silent_eq {k : Nat} {b : BlockGraph} {c : Cluster} (h : f.HasCluster k b c)
    (hsame : f.silent = f'.silent) :
  ∃ c', f'.HasCluster k b c' ∧ c.silent = c'.silent
  := by
  obtain ⟨hc, hb⟩ := h
  obtain ⟨c', hc', heq⟩ := exists_getElem?_of_map_eq (clusters_silent_eq hsame) hc
  refine ⟨c', ⟨hc', ?_⟩, heq⟩
  rw [blockGraphOf, ← blockGraphs_congr hsame,
    ← Cluster.congr_of_silent_eq (·.blockGraph) (fun _ => rfl) heq]
  apply hb

/-- Fabrics that differ in the logical nets of nodes only have the same clusters. -/
theorem hasCluster_congr {k : Nat} {b : BlockGraph} {c : Cluster} (hsame : f.silent = f'.silent)
    (hclusters : f.clusters = f'.clusters) :
  f.HasCluster k b c ↔ f'.HasCluster k b c
  := by
  rw [HasCluster, HasCluster, hclusters, blockGraphOf, blockGraphOf, blockGraphs_congr hsame]

/-- Fabrics that differ in nets only have as many clusters. -/
theorem clusterIds_congr (h : f.silent = f'.silent) : f.clusterIds = f'.clusterIds := by
  apply congr_of_silent_eq (·.clusterIds) _ h
  intro f
  simp [clusterIds, silent]

/-- Inputs do not depend on nets. -/
theorem IsBoundaryInput.of_silent_eq (h : f.IsBoundaryInput p) (hsame : f.silent = f'.silent) :
  f'.IsBoundaryInput p
  := by
  obtain ⟨b, c, hc, hinput⟩ := h
  obtain ⟨c', hc', -⟩ := hc.of_silent_eq hsame
  use b, c'

/-- Bindings of inputs do not depend on nets. -/
theorem InputOn.of_silent_eq (h : f.InputOn p node) (hsame : f.silent = f'.silent) :
  f'.InputOn p node
  := by
  obtain ⟨b, c, hc, hinput, hnode⟩ := h
  obtain ⟨c', hc', heq⟩ := hc.of_silent_eq hsame
  rw [Cluster.congr_of_silent_eq (·.locals.nodeOf p.pin) (fun _ => rfl) heq] at hnode
  use b, c'

/-- Bindings of outputs do not depend on nets. -/
theorem OutputOn.of_silent_eq (h : f.OutputOn p node) (hsame : f.silent = f'.silent) :
  f'.OutputOn p node
  := by
  obtain ⟨b, c, s, hc, hmem, hs⟩ := h
  obtain ⟨c', hc', heq⟩ := hc.of_silent_eq hsame
  rw [Cluster.congr_of_silent_eq (·.locals.bindings) (fun _ => rfl) heq] at hmem
  use b, c', s

/-- What an output covers does not depend on nets. -/
theorem Covers.of_silent_eq (h : f.Covers p q) (hsame : f.silent = f'.silent) : f'.Covers p q := by
  obtain ⟨node, hnode, hreaches⟩ := h
  rw [Reaches, RoutingGraph.linked_congr (graph_silent_eq hsame)] at hreaches
  exact ⟨node, hnode.of_silent_eq hsame, hreaches⟩

/-- Where chains end does not depend on nets. -/
theorem EndsAt.of_silent_eq (h : f.EndsAt p e) (hsame : f.silent = f'.silent) : f'.EndsAt p e := by
  obtain ⟨hcluster, b, c, hc, hchain, hend⟩ := h
  obtain ⟨c', hc', heq⟩ := hc.of_silent_eq hsame
  rw [Cluster.copies_congr heq] at hchain
  rw [Cluster.dependency_congr heq] at hend
  exact ⟨hcluster, b, c', hc', hchain, hend⟩

/-- What inputs depend on does not depend on nets. -/
theorem DependsOn.of_silent_eq (h : f.DependsOn i j) (hsame : f.silent = f'.silent) :
  f'.DependsOn i j
  := by
  obtain ⟨o, node, hi, hcovers, hend, hj⟩ := h
  exact ⟨o, node, hi.of_silent_eq hsame, hcovers.of_silent_eq hsame, hend.of_silent_eq hsame,
    hj.of_silent_eq hsame⟩

/-! ### Levels -/

/-- Nodes and pins have levels, which are kept along links and chains and rise from an input to the
outputs that depend on it. -/
structure Levels (f : Fabric) (nodeLevel : NodeId → Nat) (pinLevel : PinAt → Nat) : Prop where
  links : ∀ p q, f.graph.Linked p q → nodeLevel p = nodeLevel q
  inputs : ∀ p node, f.InputOn p node → nodeLevel node ≤ pinLevel p
  outputs : ∀ p node, f.OutputOn p node → pinLevel p < nodeLevel node
  copies : ∀ k b c p q, f.HasCluster k b c → Cluster.Copies b c c.locals.pins p q →
    pinLevel ⟨k, p⟩ = pinLevel ⟨k, q⟩

/-- On levels, nodes are on the level of those they are reached from. -/
theorem Levels.eq_of_reaches {nodeLevel : NodeId → Nat} {pinLevel : PinAt → Nat}
    (h : Levels f nodeLevel pinLevel) {p q : NodeId} (hreaches : f.Reaches p q) :
  nodeLevel p = nodeLevel q
  := by
  induction hreaches with
  | refl => rfl
  | tail _ hlinked ih => rw [ih, h.links _ _ hlinked]

/-- On levels, an input is above the inputs that it depends on. -/
theorem Levels.lt_of_dependsOn {nodeLevel : NodeId → Nat} {pinLevel : PinAt → Nat}
    (h : Levels f nodeLevel pinLevel) (hij : f.DependsOn i j) :
  pinLevel j < pinLevel i
  := by
  obtain ⟨o, node, hi, ⟨source, ho, hreaches⟩, ⟨hcluster, b, c, hc, hchain, -⟩, -⟩ := hij
  have hpins : pinLevel o = pinLevel j := by
    obtain ⟨k, pin⟩ := o
    obtain ⟨k', pin'⟩ := j
    obtain rfl : k' = k := hcluster
    change ReflTransGen _ pin pin' at hchain
    induction hchain with
    | refl => rfl
    | tail _ hcopies ih => rw [ih, h.copies _ b c _ _ hc hcopies]
  calc
    pinLevel j = pinLevel o := hpins.symm
    _ < nodeLevel source := h.outputs o source ho
    _ = nodeLevel node := h.eq_of_reaches hreaches
    _ ≤ pinLevel i := h.inputs i node hi

/-- On levels, no input depends on itself. -/
theorem Levels.acyclic {nodeLevel : NodeId → Nat} {pinLevel : PinAt → Nat}
    (h : Levels f nodeLevel pinLevel) (i : PinAt) :
  ¬ TransGen f.DependsOn i i
  := by
  apply Cluster.not_transGen_of_rank
  intro i j hij
  apply h.lt_of_dependsOn hij

end Fabric

end RoutingFabric
