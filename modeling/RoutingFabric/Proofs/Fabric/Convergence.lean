import Mathlib.Data.List.Chain
import RoutingFabric.Proofs.Fabric.FixedPoint

/-!
# Rounds come to an end where there are no loops

A pin that a round changes has its chain end at an input whose node has changed, and the node is
covered by an output that the round before has changed. Going back round by round, an input that
still changes after many rounds depends on as many inputs, one after another. There are so many only
if an input depends on itself, or if the fabric has them.
-/

namespace RoutingFabric.Fabric

open Relation

/-- Inputs of clusters, each of which depends on the next. -/
structure Chained (f : Fabric) (is : List PinAt) : Prop where
  inputs : ∀ i ∈ is, f.IsBoundaryInput i
  chain : is.IsChain f.DependsOn

/-- The chain of each pin that the next round changes ends at an input from which a number of
dependencies lead on. -/
def ChangesLate (f : Fabric) (n : Nat) : Prop :=
  ∀ count f' p, parasiticRound.Gives f count f' → f.pinLogical p ≠ f'.pinLogical p →
    ∃ e is, f.EndsAt p e ∧ f.Chained (e :: is) ∧ is.length = n

variable {f f' f₀ f₁ f₂ : Fabric} {is : List PinAt} {n count : Nat}

/-! ### Chains of inputs -/

/-- Chains of inputs do not depend on nets. -/
theorem Chained.of_silent_eq (h : f.Chained is) (hsame : f.silent = f'.silent) : f'.Chained is := by
  constructor
  case inputs =>
    intro i hi
    apply (h.inputs i hi).of_silent_eq hsame
  case chain =>
    apply h.chain.imp
    intro i j hij
    apply hij.of_silent_eq hsame

/-- Without loops the inputs of a chain are distinct. -/
theorem Chained.nodup (h : f.Chained is) (hloops : ∀ i, ¬ TransGen f.DependsOn i i) : is.Nodup :=
  nodup_of_isChain h.chain fun i _ => hloops i

/-- Without loops a chain has no more inputs than the fabric. -/
theorem Chained.length_le (h : f.Chained is) (hloops : ∀ i, ¬ TransGen f.DependsOn i i) :
  is.length ≤ f.boundaryInputs.length
  := by
  apply ((h.nodup hloops).subperm _).length_le
  intro i hi
  apply mem_boundaryInputs_iff.mpr (h.inputs i hi)

/-! ### What rounds change -/

/-- What the first round changes has its chain end at an input. -/
theorem Primed.changesLate_zero (hf : f.Primed) (hsteady : f.Steady) : f.ChangesLate 0 := by
  intro count f' p hround hne
  obtain ⟨e, node, hend, hinput, -⟩ := (hf.advanced hround).exists_input hf hsteady hne
  refine ⟨e, [], hend, ⟨?_, List.isChain_singleton e⟩, rfl⟩
  intro i hi
  rw [List.mem_singleton.mp hi]
  apply hinput.isBoundaryInput

/-- What the round after the next changes has its chain end at an input that depends on one at which
the chain of a pin ends that the next round changes. -/
theorem Primed.changesLate_succ (hf : f.Primed) (h : f.ChangesLate n)
    (hround : parasiticRound.Gives f count f₁) :
  f₁.ChangesLate (n + 1)
  := by
  intro count' f' p hround' hne
  have hnext := hf.advanced hround
  have hf₁ := hnext.primed hf
  have hnext' := hf₁.advanced hround'
  obtain ⟨e, node, hend, hinput, hlogical⟩ := hnext'.exists_input hf₁ (hnext.steady hf) hne
  -- the node has changed since an output did in the round before
  obtain ⟨nodes, exported, hexport, hgraph⟩ := hnext.exports
  obtain ⟨nodes', exported', hexport', hgraph'⟩ := hnext'.exports
  rw [hgraph'] at hlogical
  obtain ⟨o, hcovers, houtput⟩ :=
    hf.exists_output hexport hgraph hnext.same hf₁ hexport' hlogical
  obtain ⟨e', is, hend', hchained, hlength⟩ := h count f₁ o hround houtput
  have hchained := hchained.of_silent_eq hnext.same.symm
  have hdepends : f₁.DependsOn e e' :=
    ⟨o, node, hinput, hcovers, hend'.of_silent_eq hnext.same.symm,
      hchained.inputs e' List.mem_cons_self⟩
  refine ⟨e, e' :: is, hend, ⟨?_, List.isChain_cons_cons.mpr ⟨hdepends, hchained.chain⟩⟩, ?_⟩
  · intro i hi
    rcases List.mem_cons.mp hi with rfl | hi
    · apply hinput.isBoundaryInput
    · apply hchained.inputs i hi
  · rw [List.length_cons, hlength]

/-- Rounds come to an end unless inputs depend on one another in a chain of as many inputs. -/
theorem Primed.exists_rounds_or_chained (hf : f.Primed) (hsteady : f.Steady)
    (hlinks : ∀ q, ¬ TransGen f.graph.Linked q q) (hlate : f.ChangesLate n)
    (hchained : ∃ is, f.Chained is ∧ is.length = n) (done more : Nat) :
  (∃ rounds f', (roundsFrom done more).Gives f rounds f')
    ∨ ∃ is, f.Chained is ∧ is.length = n + more
  := by
  induction more generalizing f n done with
  | zero =>
    right
    apply hchained
  | succ more ih =>
    obtain ⟨count, f₁, hround⟩ := hf.exists_round hsteady (fun _ node _ _ => hlinks node)
    have hnext := hf.advanced hround
    by_cases hcount : count = 0
    · left
      use done + 1, f₁
      exact gives_roundsFrom_succ_iff.mpr ⟨count, f₁, hround, .inl ⟨hcount, rfl, rfl⟩⟩
    · obtain ⟨p, hp⟩ := hnext.exists_pin hf hcount
      obtain ⟨e, is, -, hchain, hlength⟩ := hlate count f₁ p hround hp
      have hlinks₁ : ∀ q, ¬ TransGen f₁.graph.Linked q q := by
        rw [← RoutingGraph.linked_congr hnext.graph]
        apply hlinks
      have hchained₁ : ∃ is, f₁.Chained is ∧ is.length = n + 1 :=
        ⟨e :: is, hchain.of_silent_eq hnext.same.symm, by rw [List.length_cons, hlength]⟩
      rcases ih (hnext.primed hf) (hnext.steady hf) hlinks₁ (hf.changesLate_succ hlate hround)
        hchained₁ (done + 1) with ⟨rounds, f', h⟩ | ⟨is, his, hlength⟩
      · left
        use rounds, f'
        exact gives_roundsFrom_succ_iff.mpr ⟨count, f₁, hround, .inr ⟨hcount, h⟩⟩
      · right
        refine ⟨is, his.of_silent_eq hnext.same, ?_⟩
        rw [hlength, Nat.add_assoc, Nat.add_comm 1]

/-- From an annotated fabric rounds come to an end unless inputs depend on one another in a chain of
as many inputs. -/
theorem exists_propagateParasitic_or_chained {skip : Bool} {stats : RoutingStats}
    (hprepare : prepare.Gives f₀ () f₁) (htrace : (traceNets skip).Gives f₁ stats f₂)
    (hclusters : annotateClusters.Gives f₂ () f) (hlinks : ∀ q, ¬ TransGen f.graph.Linked q q)
    (most : Nat) :
  (∃ rounds f', (propagateParasitic most).Gives f rounds f')
    ∨ ∃ is, f.Chained is ∧ is.length = most
  := by
  obtain ⟨hf, hsteady⟩ := primed_of_phases hprepare htrace hclusters
  have hchained : f.Chained [] := ⟨by simp, List.isChain_nil⟩
  have h := hf.exists_rounds_or_chained hsteady hlinks (hf.changesLate_zero hsteady)
    ⟨[], hchained, rfl⟩ 0 most
  rwa [Nat.zero_add] at h

/-! ### Without loops -/

/-- Links that lead on to later nodes form no loop. -/
theorem not_transGen_of_lt {g : RoutingGraph} (h : ∀ p q : Nat, g.Linked p q → p < q) (q : NodeId) :
  ¬ TransGen g.Linked q q
  := by
  have hrank : ∀ p q : Nat, g.Linked p q → g.size - q < g.size - p := by
    intro p q hlink
    apply Nat.sub_lt_sub_left _ (h p q hlink)
    apply Nat.lt_trans (h p q hlink) hlink.lt
  apply Cluster.not_transGen_of_rank hrank

/-- Where neither links nor dependencies form a loop, rounds come to an end if more of them are
allowed than there are inputs. -/
theorem exists_propagateParasitic {skip : Bool} {stats : RoutingStats}
    (hprepare : prepare.Gives f₀ () f₁) (htrace : (traceNets skip).Gives f₁ stats f₂)
    (hclusters : annotateClusters.Gives f₂ () f) (hlinks : ∀ q, ¬ TransGen f.graph.Linked q q)
    (hloops : ∀ i, ¬ TransGen f.DependsOn i i) (most : Nat)
    (hmost : f.boundaryInputs.length < most) :
  ∃ rounds f', (propagateParasitic most).Gives f rounds f'
  := by
  rcases exists_propagateParasitic_or_chained hprepare htrace hclusters hlinks most with
    h | ⟨is, hchained, hlength⟩
  · apply h
  · have hle := hchained.length_le hloops
    rw [hlength] at hle
    cases Nat.not_lt_of_le hle hmost

/-- The ladder after its nets are traced. -/
def tracedLadder : Fabric := ((traceNets true).run preparedLadder).state

/-- The ladder after its clusters are annotated as well. -/
def annotatedLadder : Fabric := (annotateClusters.run tracedLadder).state

/-- The ladder is traced and annotated. It has four inputs, and a net takes four rounds along it,
while three are allowed by default. -/
theorem outcomes_ladder :
  ((traceNets true).run preparedLadder).outcome = .ok ⟨4, 0, 8⟩
    ∧ (annotateClusters.run tracedLadder).outcome = .ok ()
    ∧ annotatedLadder.boundaryInputs.length = 4
    ∧ annotatedLadder.defaultRounds = .ok 3
    ∧ ((propagateParasitic 3).run annotatedLadder).outcome
      = .error (.problem (.propagationDiverged 3 ["c: ladder.in3[0]"]))
    ∧ ((propagateParasitic 4).run annotatedLadder).outcome = .ok 4
  := by
  decide +kernel

/-- The nets of the ladder are traced. -/
theorem traceNets_preparedLadder :
  (traceNets true).Gives preparedLadder ⟨4, 0, 8⟩ tracedLadder
  :=
  ⟨outcomes_ladder.1, rfl⟩

/-- The cluster of the ladder is annotated. -/
theorem annotateClusters_tracedLadder : annotateClusters.Gives tracedLadder () annotatedLadder :=
  ⟨outcomes_ladder.2.1, rfl⟩

/-- The ladder has a single cluster. -/
theorem eq_of_hasCluster_ladder {k : Nat} {b : BlockGraph} {c : Cluster}
    (h : annotatedLadder.HasCluster k b c) :
  k = 0 ∧ b = ladderBlock ∧ annotatedLadder.clusters[0]? = some c
  := by
  obtain ⟨hc, hb⟩ := h
  obtain ⟨hsize, hall⟩ : annotatedLadder.clusters.size = 1
      ∧ ∀ c ∈ annotatedLadder.clusters[0]?, annotatedLadder.blockGraphOf c = .ok ladderBlock := by
    decide +kernel
  obtain ⟨hk, -⟩ := Array.getElem?_eq_some_iff.mp hc
  obtain rfl : k = 0 := by omega
  rw [hall c hc] at hb
  cases hb
  exact ⟨rfl, rfl, hc⟩

/-- The links of the ladder lead on to later nodes of the same rung. -/
theorem linked_ladder {p q : Nat} (h : annotatedLadder.graph.Linked p q) :
  p < q ∧ p / 2 = q / 2
  := by
  have hall : ∀ q < annotatedLadder.graph.size, ∀ n ∈ annotatedLadder.graph.nodes[q]?,
      ∀ s ∈ n.selected, s.driver < q ∧ s.driver / 2 = q / 2 := by
    decide +kernel
  apply h.of_selected hall

/-- The links of the ladder form no loop. -/
theorem not_transGen_linked_ladder (q : NodeId) :
  ¬ TransGen annotatedLadder.graph.Linked q q
  := by
  apply not_transGen_of_lt
  intro p q h
  apply (linked_ladder h).1

/-- Each rung of the ladder is a level. -/
theorem levels_ladder : annotatedLadder.Levels (· / 2) (·.pin / 2) := by
  constructor
  case links =>
    intro p q h
    apply (linked_ladder h).2
  case inputs =>
    rintro p node ⟨b, c, hc, hinput, hnode⟩
    obtain ⟨-, rfl, hat⟩ := eq_of_hasCluster_ladder hc
    have hall : ∀ c ∈ annotatedLadder.clusters[0]?, ∀ pin < 7,
        ladderBlock.isClusterInput pin = .ok true → ∀ node ∈ c.locals.nodeOf pin,
        node / 2 ≤ pin / 2 := by
      decide +kernel
    apply hall c hat p.pin (lt_of_isClusterInput hinput) hinput node hnode
  case outputs =>
    rintro p node ⟨b, c, s, hc, hmem, hs, houtput⟩
    obtain ⟨-, rfl, hat⟩ := eq_of_hasCluster_ladder hc
    have hall : ∀ c ∈ annotatedLadder.clusters[0]?, ∀ x ∈ c.locals.bindings,
        ∀ s ∈ ladderBlock.pins[x.1]?, ¬ s.kind.isInput → x.1 / 2 < x.2 / 2 := by
      decide +kernel
    apply hall c hat (p.pin, node) hmem s (entry_eq_ok_iff.mp hs) houtput
  case copies =>
    intro k b c (p : Nat) q hc hcopies
    obtain ⟨-, rfl, hat⟩ := eq_of_hasCluster_ladder hc
    obtain ⟨s, hs, -⟩ := bind_eq_ok_iff.mp hcopies
    obtain ⟨hp, -⟩ := Array.getElem?_eq_some_iff.mp (entry_eq_ok_iff.mp hs)
    have hall : ∀ c ∈ annotatedLadder.clusters[0]?, ∀ p : Nat, p < c.locals.pins.size →
        Cluster.dependency ladderBlock c c.locals.pins p
          = .ok (if p % 2 = 1 then some (p - 1) else none) := by
      decide +kernel
    rw [Cluster.Copies, hall c hat p hp] at hcopies
    split at hcopies
    · cases hcopies
      change p / 2 = (p - 1) / 2
      omega
    · cases hcopies

/-- Five rounds are enough for the ladder. -/
theorem exists_propagateParasitic_ladder :
  prepare.Gives ladderFabric () preparedLadder
    ∧ (traceNets true).Gives preparedLadder ⟨4, 0, 8⟩ tracedLadder
    ∧ annotateClusters.Gives tracedLadder () annotatedLadder
    ∧ annotatedLadder.boundaryInputs.length < 5
    ∧ ∃ rounds f', (propagateParasitic 5).Gives annotatedLadder rounds f'
  := by
  obtain ⟨-, -, hlength, -⟩ := outcomes_ladder
  have hmost : annotatedLadder.boundaryInputs.length < 5 := by omega
  exact ⟨prepare_ladderFabric, traceNets_preparedLadder, annotateClusters_tracedLadder, hmost,
    exists_propagateParasitic prepare_ladderFabric traceNets_preparedLadder
      annotateClusters_tracedLadder not_transGen_linked_ladder levels_ladder.acyclic 5 hmost⟩

/-! ### The limit by default -/

/-- Where neither links nor dependencies form a loop, as many rounds as are allowed by default are
enough unless inputs as many as clusters and levels of the hierarchy, and two more, depend on one
another in a chain. -/
theorem exists_defaultRounds_or_chained {skip : Bool} {stats : RoutingStats} {cap : Nat}
    (hprepare : prepare.Gives f₀ () f₁) (htrace : (traceNets skip).Gives f₁ stats f₂)
    (hclusters : annotateClusters.Gives f₂ () f) (hlinks : ∀ q, ¬ TransGen f.graph.Linked q q)
    (hloops : ∀ i, ¬ TransGen f.DependsOn i i) (hcap : f.defaultRounds = .ok cap) :
  (∃ rounds f', (propagateParasitic cap).Gives f rounds f')
    ∨ ∃ is, f.Chained is ∧ is.Nodup ∧ is.length = f.clusters.size + f.maxClusterDepth + 2
  := by
  rcases exists_propagateParasitic_or_chained hprepare htrace hclusters hlinks cap with
    h | ⟨is, hchained, hlength⟩
  · left
    apply h
  · right
    refine ⟨is, hchained, hchained.nodup hloops, ?_⟩
    rw [hlength]
    rw [defaultRounds, word] at hcap
    split at hcap
    · cases hcap
      rfl
    · cases hcap

/-- The ladder has three inputs that depend on one another in a chain. -/
theorem exists_chained_ladder :
  prepare.Gives ladderFabric () preparedLadder
    ∧ (traceNets true).Gives preparedLadder ⟨4, 0, 8⟩ tracedLadder
    ∧ annotateClusters.Gives tracedLadder () annotatedLadder
    ∧ annotatedLadder.defaultRounds = .ok 3
    ∧ ∃ is, annotatedLadder.Chained is ∧ is.Nodup
      ∧ is.length = annotatedLadder.clusters.size + annotatedLadder.maxClusterDepth + 2
  := by
  obtain ⟨-, -, -, hcap, hdiverged, -⟩ := outcomes_ladder
  refine ⟨prepare_ladderFabric, traceNets_preparedLadder, annotateClusters_tracedLadder, hcap, ?_⟩
  rcases exists_defaultRounds_or_chained prepare_ladderFabric traceNets_preparedLadder
    annotateClusters_tracedLadder not_transGen_linked_ladder levels_ladder.acyclic hcap with
    ⟨rounds, f', h, -⟩ | hchained
  · rw [hdiverged] at h
    cases h
  · apply hchained

/-- The ladder has no loop, but the rounds that are allowed by default are not enough for it. -/
theorem diverged_without_loop :
  prepare.Gives ladderFabric () preparedLadder
    ∧ (traceNets true).Gives preparedLadder ⟨4, 0, 8⟩ tracedLadder
    ∧ annotateClusters.Gives tracedLadder () annotatedLadder
    ∧ (∀ q, ¬ TransGen annotatedLadder.graph.Linked q q)
    ∧ (∀ i, ¬ TransGen annotatedLadder.DependsOn i i)
    ∧ annotatedLadder.defaultRounds = .ok 3
    ∧ ((propagateParasitic 3).run annotatedLadder).outcome
      = .error (.problem (.propagationDiverged 3 ["c: ladder.in3[0]"]))
    ∧ ((propagateParasitic 4).run annotatedLadder).outcome = .ok 4
  :=
  ⟨prepare_ladderFabric, traceNets_preparedLadder, annotateClusters_tracedLadder,
    not_transGen_linked_ladder, levels_ladder.acyclic, outcomes_ladder.2.2.2⟩

end RoutingFabric.Fabric
