import RoutingFabric.Fabric.Words
import RoutingFabric.Proofs.RoutingGraph.Faults

/-!
# Counting nodes in machine words

A net claims a node that has none, so that no more nodes are claimed than have a net, and forwarding
changes a node that carries another logical net, so that no more nodes are changed than carried one.
These counts stay in the machine word where the number of nodes is in it.
-/

namespace RoutingFabric.RoutingGraph

variable {t : NetTable} {net : NetId} {g g' g₀ : RoutingGraph} {id : NodeId} {ids : List NodeId}
variable {n count updated more : Nat} {standing : TraceState} {logical : Option LogicalId}
variable {skip : Bool} {stats : RoutingStats}

/-! ### Tracing -/

/-- Entering a node counts in words where no more nodes have been claimed than have a net. -/
theorem words_enter (hn : n ≤ g.claimed) (hsize : g.size < wordLimit) :
  InWords.enter t net g n standing id = countedFrom n (enter t net g standing id)
  := by
  have hword : ∀ count g', claim t net g id = .ok (count, g') → n + count < wordLimit := by
    intro count g' hclaim
    have hclaimed := claimed_of_claim hclaim
    have hle := claimed_le g'
    rw [size_of_claim hclaim] at hle
    omega
  cases standing with
  | start =>
    apply bind_congr_of_ok
    rintro ⟨here, g'⟩ hclaim
    dsimp only
    rw [word_of_lt (hword here g' hclaim)]
    rfl
  | «from» driver =>
    apply countedFrom_after
    rintro ⟨here, g'⟩ hclaim
    dsimp only
    rw [word_of_lt (hword here g' hclaim), ok_bind]
    apply countedFrom_after
    intro g'' _
    rfl
  | branch =>
    apply countedFrom_after
    intro m _
    split <;> rfl

/-- Walking a trace counts in words where no more nodes have been claimed than have a net. -/
theorem words_walkTrace (hn : n ≤ g.claimed) (hsize : g.size < wordLimit) :
  InWords.walkTrace t net g n standing ids = countedFrom n (walkTrace t net g standing ids)
  := by
  induction ids generalizing g n standing with
  | nil => rfl
  | cons id ids ih =>
    rw [InWords.walkTrace, walkTrace]
    split
    · apply countedFrom_bind (words_enter hn hsize)
      intro here g' henter
      apply countedFrom_after
      intro m _
      apply Eq.trans _ (countedFrom_countedFrom _).symm
      apply ih
      · rw [claimed_of_enter henter]
        apply Nat.add_le_add_right hn
      · rw [size_of_enter henter]
        apply hsize
    · rfl

/-- Tracing a net counts in words where there is room for one net more. -/
theorem run_words_traceNet {m : Net} (hnodes : stats.annotated = g.claimed)
    (hsize : g.size < wordLimit) (hnets : stats.routed + stats.skipped + 1 < wordLimit) :
  (InWords.traceNet t net skip m stats).run g = (traceNet t net skip m stats).run g
  := by
  rw [InWords.traceNet, traceNet]
  split
  · apply Phase.run_bind_congr rfl
    intro _ g' _
    apply Phase.run_word_bind
    omega
  · split
    · rfl
    · apply Phase.run_state_bind_congr
      rw [words_walkTrace (Nat.zero_le _) hsize, countedFrom_zero]
      apply Phase.run_lift_bind_congr
      rintro ⟨count, g'⟩ hwalk
      apply Phase.run_put_bind_congr
      have hclaimed := claimed_of_walkTrace hwalk
      have hle := claimed_le g'
      rw [size_of_walkTrace hwalk] at hle
      rw [Phase.run_word_bind (by omega), Phase.run_word_bind (by omega)]

/-- Once the nets before those of a list are traced, tracing these counts in words where there is
room for all of them. -/
theorem TracedBefore.run_words_traceFrom {ns : List Net} (h : TracedBefore t skip g₀ net stats g)
    (hns : t.nets.toList.drop net = ns) (hsize : g₀.size < wordLimit)
    (hnets : stats.routed + stats.skipped + ns.length < wordLimit) :
  (InWords.traceFrom t skip net stats ns).run g = (RoutingGraph.traceNets t skip net stats ns).run g
  := by
  induction ns generalizing g net stats with
  | nil => rfl
  | cons m ns ih =>
    obtain ⟨hm, hrest⟩ := net_of_drop_eq_cons hns
    rw [List.length_cons] at hnets
    apply Phase.run_bind_congr
    · apply run_words_traceNet h.annotated
      · rw [size_eq_of_view_eq h.marked.same]
        apply hsize
      · omega
    · intro stats' g' hnet
      apply ih (h.traceNet hm hnet) hrest
      rw [stats_of_traceNet hnet]
      omega

/-- Tracing all nets counts in words where the numbers of nets and nodes are words. -/
theorem run_words_traceAll (hsize : g.size < wordLimit) (hnets : t.nets.size < wordLimit) :
  (InWords.traceAll t skip).run g = (traceAll t skip).run g
  := by
  apply Phase.run_state_bind_congr
  apply Phase.run_put_bind_congr
  apply Phase.run_bind_congr
  · apply (tracedBefore_zero skip).run_words_traceFrom rfl hsize
    simpa using hnets
  · intro stats g' _
    rfl

/-! ### Forwarding -/

/-- Giving a logical net to nodes counts in words where there is room for those that carry
another. -/
theorem words_giveLogical (hroom : updated + g.unlike logical < wordLimit) :
  InWords.giveLogical g logical updated ids = countedFrom updated (g.giveLogical logical ids)
  := by
  induction ids generalizing g updated with
  | nil => rfl
  | cons id ids ih =>
    rw [InWords.giveLogical, giveLogical]
    apply countedFrom_after
    intro m hm
    apply countedFrom_after
    intro g' hmodify
    have hone : g.giveLogical logical [id] = .ok (if m.logical = logical then 0 else 1, g') := by
      rw [giveLogical, hm, ok_bind, hmodify]
      rfl
    have := unlike_of_giveLogical hone
    rw [word_of_lt (by omega), ok_bind]
    apply Eq.trans _ (countedFrom_countedFrom _).symm
    apply ih
    omega

/-- Forwarding a logical net counts in words where there is room for the nodes that carry
another. -/
theorem words_forwardFrom (hroom : updated + g.unlike logical < wordLimit) :
  InWords.forwardFrom logical more updated ids g
    = countedFrom updated (forwardFrom logical more ids g)
  := by
  induction more generalizing g ids updated with
  | zero => cases ids <;> rfl
  | succ more ih =>
    cases ids with
    | nil => rfl
    | cons id ids =>
      rw [InWords.forwardFrom, forwardFrom]
      apply countedFrom_after
      intro reached _
      apply countedFrom_bind (words_giveLogical hroom)
      intro here g' hgive
      apply Eq.trans _ (countedFrom_countedFrom _).symm
      apply ih
      have := unlike_of_giveLogical hgive
      omega

/-- Forwarding the logical net of a node counts in words where the number of nodes is one. -/
theorem words_forwardLogical (hsize : g.size < wordLimit) :
  InWords.forwardLogical g id = g.forwardLogical id
  := by
  apply bind_congr_of_ok
  intro m _
  rw [words_forwardFrom, countedFrom_zero]
  rw [Nat.zero_add]
  apply Nat.lt_of_le_of_lt unlike_le hsize

end RoutingFabric.RoutingGraph
