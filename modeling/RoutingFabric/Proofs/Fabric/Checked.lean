import RoutingFabric.Proofs.Cluster.Checked
import RoutingFabric.Proofs.Fabric.Run

/-!
# Checked fabrics

Preparation leaves a fabric whose types are closed, and whose clusters point only into their types
and into the tables of the fabric. Annotating clusters keeps it so.
-/

namespace RoutingFabric.Fabric

/-- The types of clusters point into themselves, and the clusters into their types and into the
tables of nodes and nets. -/
structure Checked (f : Fabric) : Prop where
  types : ∀ b ∈ f.blockGraphs, b.Closed
  clusters : ∀ c ∈ f.clusters, ∃ b, f.blockGraphOf c = .ok b
    ∧ c.Checked b f.graph.size f.nets.nets.size

variable {f f' f₀ : Fabric} {c : Cluster} {id : Nat}

/-- A prepared fabric is checked. -/
theorem checked_of_prepare (h : prepare.Gives f₀ () f) : f.Checked := by
  obtain ⟨hvalid, hclusters⟩ := checks_of_prepare h
  constructor
  · intro b hb
    apply BlockGraph.closed_of_validate (hvalid b hb)
  · intro c hc
    obtain ⟨b, c₀, hb, hprepare⟩ := hclusters c hc
    exact ⟨b, hb, Cluster.checked_of_prepare hprepare⟩

/-- The cluster at an index of a checked fabric is checked. -/
theorem Checked.cluster {b : BlockGraph} (hf : f.Checked) (hc : f.clusters[id]? = some c)
    (hb : f.blockGraphOf c = .ok b) :
  c.Checked b f.graph.size f.nets.nets.size
  := by
  obtain ⟨b', hb', hchecked⟩ := hf.clusters c (Array.mem_of_getElem? hc)
  rw [hb] at hb'
  cases hb'
  apply hchecked

/-- A cluster may take the place of another one if it is checked. -/
theorem Checked.modify (hf : f.Checked) {b : BlockGraph} (hb : f.blockGraphOf c = .ok b)
    (hc : c.Checked b f.graph.size f.nets.nets.size) :
  Checked { f with clusters := f.clusters.modify id fun _ => c }
  := by
  constructor
  · apply hf.types
  · intro c' hc'
    obtain ⟨k, hk⟩ := Array.mem_iff_getElem?.mp hc'
    rcases eq_or_getElem?_of_modify hk with rfl | ⟨-, hk⟩
    · use b, hb
    · apply hf.clusters c' (Array.mem_of_getElem? hk)

/-- A graph may take the place of another one with as many nodes. -/
theorem Checked.with_graph (hf : f.Checked) {g : RoutingGraph} (hg : g.size = f.graph.size) :
  Checked { f with graph := g }
  := by
  constructor
  · apply hf.types
  · intro c hc
    rw [hg]
    apply hf.clusters c hc

end RoutingFabric.Fabric
