import Mathlib.Data.List.Nodup
import RoutingFabric.Proofs.Outcome
import RoutingFabric.RoutingGraph.Lookup

/-!
# Nodes that are looked up

Once the order of the nodes is set up, every node is listed once at each tile where it is found, and
at no other.
-/

namespace RoutingFabric.RoutingGraph

/-- Every node of the graph is listed once in the order in which nodes are looked up. -/
def Listed (g : RoutingGraph) : Prop := g.lookup.Perm g.ids

variable {g : RoutingGraph} {kind : Kind} {t : Tile} {side : Side} {id : NodeId}

/-- Every node is listed once the order is set up. -/
theorem listed_buildLookup (g : RoutingGraph) : g.buildLookup.Listed :=
  List.mergeSort_perm g.ids g.comesFirst

/-- A wire is found at the tiles that it spans. -/
theorem Node.isAt_ofAxis_iff {n : Node} {axis : Axis} :
  n.isAt (Kind.ofAxis axis) t = true ↔ n.kind = Kind.ofAxis axis ∧ n.covers t = true
  := by
  rw [isAt, Bool.and_eq_true, decide_eq_true_iff]
  cases axis <;> rfl

/-- A pin is found at its low corner. -/
theorem Node.isAt_pin_iff {n : Node} (h : kind.isPin = true) :
  n.isAt kind t = true ↔ n.kind = kind ∧ n.low = t
  := by
  cases kind <;> cases h <;> simp [Node.isAt, Kind.isWire]

/-- Nodes are found by what they are. -/
theorem isAt_iff : g.isAt kind t id = true ↔ ∃ n, g.node id = .ok n ∧ n.isAt kind t = true := by
  simp only [isAt, node, entry_eq_ok_iff]
  split
  · rename_i n hn
    simp [hn]
  · rename_i hnone
    simp [hnone]

/-- The nodes listed at a tile are those that are found there. -/
theorem Listed.mem_nodesAt_iff (hg : g.Listed) :
  id ∈ g.nodesAt kind t ↔ ∃ n, g.node id = .ok n ∧ n.isAt kind t = true
  := by
  rw [nodesAt, List.mem_filter, isAt_iff, hg.mem_iff, ids, List.mem_range, and_iff_right_iff_imp]
  rintro ⟨n, hn, -⟩
  apply (Array.getElem?_eq_some_iff.mp (entry_eq_ok_iff.mp hn)).1

/-- No node is listed twice at a tile. -/
theorem Listed.nodup_nodesAt (hg : g.Listed) : (g.nodesAt kind t).Nodup := by
  apply List.Nodup.filter
  apply hg.nodup_iff.mpr List.nodup_range

/-- The pins listed on a side are those that are found there. -/
theorem Listed.mem_pinsAt_iff (hg : g.Listed) :
  id ∈ g.pinsAt kind t side
    ↔ ∃ n, g.node id = .ok n ∧ n.isAt kind t = true ∧ n.side = some side
  := by
  rw [pinsAt, List.mem_filter, hg.mem_nodesAt_iff]
  constructor
  · rintro ⟨⟨n, hn, hat⟩, hside⟩
    refine ⟨n, hn, hat, ?_⟩
    rw [entry_eq_ok_iff.mp hn] at hside
    simpa using hside
  · rintro ⟨n, hn, hat, hside⟩
    refine ⟨⟨n, hn, hat⟩, ?_⟩
    rw [entry_eq_ok_iff.mp hn]
    simpa using hside

/-- No pin is listed twice on a side. -/
theorem Listed.nodup_pinsAt (hg : g.Listed) : (g.pinsAt kind t side).Nodup :=
  hg.nodup_nodesAt.filter _

end RoutingFabric.RoutingGraph
