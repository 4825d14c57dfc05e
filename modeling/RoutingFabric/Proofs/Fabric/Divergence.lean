import RoutingFabric.Proofs.Cluster.ClosedForm
import RoutingFabric.Proofs.Cluster.Complete
import RoutingFabric.Proofs.Fabric.Identities
import RoutingFabric.Proofs.Fabric.Safety
import RoutingFabric.Proofs.RoutingGraph.Inverse

/-!
# The number of rounds, and what is reported without an end

Rounds end with the first one that changes no input, if that is allowed, and the number of it is
given. Otherwise as many rounds are made as are allowed, and the inputs that the last one changed
are reported in order. The report names them, so none is given where the name of one has no end.
-/

namespace RoutingFabric

/-- The cluster of the pin comes before that of the other one, or it is the same and the pin comes
before the other one. -/
def PinAt.Before (p q : PinAt) : Prop :=
  p.cluster < q.cluster ∨ p.cluster = q.cluster ∧ p.pin < q.pin

namespace Fabric

open BlockGraph Relation

/-- The pin is an input of a block in its cluster. -/
def IsInput (f : Fabric) (p : PinAt) : Prop :=
  ∃ b c s, f.HasCluster p.cluster b c ∧ b.pin p.pin = .ok s ∧ s.kind.isInput

/-- The pin is an input that carries another logical net in the second fabric. -/
def Moves (f f' : Fabric) (p : PinAt) : Prop := f.IsInput p ∧ f.pinLogical p ≠ f'.pinLogical p

/-- The round of the number changes the logical net of no input. -/
def QuietRound (f : Fabric) (k : Nat) : Prop :=
  ∃ n g count g', k = n + 1 ∧ f.Rounds n g ∧ parasiticRound.Gives g count g' ∧ ∀ p, ¬ g.Moves g' p

/-- The name of a pin, after that of its cluster. -/
def nameAt (f : Fabric) (p : PinAt) : Outcome String := do
  let c ← entry f.clusters p.cluster
  let b ← f.blockGraphOf c
  return c.name ++ ": " ++ (← b.pinName p.pin)

/-- Looking for the name of the pin has no end, since its block is in or below a loop. -/
def Nameless (f : Fabric) (p : PinAt) : Prop :=
  ∃ b c s, f.HasCluster p.cluster b c ∧ b.pins[p.pin]? = some s ∧ b.Looped s.block

/-- The pins that the last round changed. -/
def flagged (f : Fabric) : List PinAt :=
  f.clusters.toList.zipIdx.flatMap fun (c, i) => c.locals.changedPins.map (⟨i, ·⟩)

/-- After so many rounds the pins are reported by name in their order, or the name of one has no
end. -/
structure Reports (f : Fabric) (rounds : Nat) (ps : List PinAt) (outcome : Outcome Nat) : Prop where
  sorted : ps.Pairwise PinAt.Before
  reported :
    (∃ pending, List.Forall₂ (fun p name => f.nameAt p = .ok name) ps pending
      ∧ outcome = .error (.problem (.propagationDiverged rounds pending)))
    ∨ (∃ p ∈ ps, f.Nameless p) ∧ outcome = fault .endless

variable {f f' f₀ f₁ f₂ : Fabric} {p : PinAt} {count done more k n : Nat}

/-! ### The pins that a round changes -/

/-- The pins that the last round changed are listed. -/
theorem mem_flagged_iff :
  p ∈ f.flagged ↔ ∃ c, f.clusters[p.cluster]? = some c ∧ p.pin ∈ c.locals.changedPins
  := by
  simp only [flagged, List.mem_flatMap, Prod.exists, List.mem_zipIdx_iff_getElem?,
    Array.getElem?_toList, List.mem_map]
  constructor
  · rintro ⟨c, i, hc, id, hid, rfl⟩
    use c
  · rintro ⟨c, hc, hid⟩
    use c, p.cluster, hc, p.pin

/-- The pins that the last round changed are listed in order. -/
theorem pairwise_flagged (f : Fabric) : f.flagged.Pairwise PinAt.Before := by
  apply List.pairwise_flatMap.mpr
  constructor
  · rintro ⟨c, i⟩ -
    apply List.pairwise_map.mpr
    rw [Cluster.changedPins_eq_filter]
    apply (List.pairwise_lt_range.filter _).imp
    intro id id' hlt
    right
    exact ⟨rfl, hlt⟩
  · apply (RoutingGraph.pairwise_zipIdx f.clusters.toList).imp
    rintro x y hlt p hp q hq
    obtain ⟨_, -, rfl⟩ := List.mem_map.mp hp
    obtain ⟨_, -, rfl⟩ := List.mem_map.mp hq
    left
    exact hlt

/-- The last round has changed no pin if none is listed. -/
theorem flagged_eq_nil_iff : f.flagged = [] ↔ f.Quiet := by
  rw [List.eq_nil_iff_forall_not_mem]
  constructor
  · intro hnone i c hc id
    apply eq_false_of_ne_true
    intro hchanged
    apply hnone ⟨i, id⟩
    exact mem_flagged_iff.mpr ⟨c, hc, Cluster.mem_changedPins.mpr hchanged⟩
  · intro hquiet p hp
    obtain ⟨c, hc, hid⟩ := mem_flagged_iff.mp hp
    rw [Cluster.mem_changedPins, hquiet p.cluster c hc p.pin] at hid
    cases hid

/-- The pins that a round has changed are the inputs whose logical net is another than before. -/
theorem Advanced.mem_flagged_iff (h : f.Advanced count f') (hf : f.Primed) :
  p ∈ f'.flagged ↔ f.Moves f' p
  := by
  rw [Fabric.mem_flagged_iff]
  constructor
  · rintro ⟨c', hc', hid⟩
    obtain ⟨b, hb, -⟩ := (h.primed hf).clusters p.cluster c' hc'
    obtain ⟨c, n, hc, hok⟩ := h.exists_cluster ⟨hc', hb⟩
    obtain ⟨⟨s, hs, hinput⟩, hne⟩ := ((hf.cluster hc).ordered.mem_changedPins_iff hok).mp hid
    use ⟨b, c, s, hc, hs, hinput⟩
    rwa [Fabric.pinLogical_eq hc.1, Fabric.pinLogical_eq hc']
  · rintro ⟨⟨b, c, s, hc, hs, hinput⟩, hne⟩
    obtain ⟨c', n, hok, hc'⟩ := h.clusters p.cluster b c hc
    rw [Fabric.pinLogical_eq hc.1, Fabric.pinLogical_eq hc'.1] at hne
    use c', hc'.1
    exact ((hf.cluster hc).ordered.mem_changedPins_iff hok).mpr ⟨⟨s, hs, hinput⟩, hne⟩

/-- A round counts nothing exactly when it changes the logical net of no input. -/
theorem Advanced.eq_zero_iff (h : f.Advanced count f') (hf : f.Primed) :
  count = 0 ↔ ∀ p, ¬ f.Moves f' p
  := by
  rw [h.counted, ← flagged_eq_nil_iff, List.eq_nil_iff_forall_not_mem]
  apply forall_congr'
  intro p
  rw [h.mem_flagged_iff hf]

/-! ### Names of the pins -/

/-- The pins that the last round changed are named one after another. -/
theorem Primed.changingPins_eq (hf : f.Primed) : f.changingPins = f.flagged.mapM f.nameAt := by
  have hindex : f.clusters.toList.mapM f.changingPinsOf
      = f.clusters.toList.zipIdx.mapM (f.changingPinsOf ∘ Prod.fst) := by
    rw [← List.mapM_map, List.zipIdx_map_fst]
  have heach : ∀ x ∈ f.clusters.toList.zipIdx, (f.changingPinsOf ∘ Prod.fst) x
      = (x.1.locals.changedPins.map (⟨x.2, ·⟩)).mapM f.nameAt := by
    rintro ⟨c, i⟩ hc
    have hc := List.mem_zipIdx_iff_getElem?.mp hc
    rw [Array.getElem?_toList] at hc
    obtain ⟨b, hb, -⟩ := hf.clusters i c hc
    rw [List.mapM_map, Function.comp_apply, changingPinsOf, hb, ok_bind]
    apply mapM_congr
    intro id _
    rw [Function.comp_apply, nameAt, entry_eq_ok_iff.mpr hc, ok_bind, hb, ok_bind]
  rw [changingPins, flagged, mapM_flatMap, hindex, mapM_congr heach]

/-- The name of a pin of a cluster is found, or has no end. -/
theorem nameAt_cases {b : BlockGraph} {c : Cluster} (hc : f.HasCluster p.cluster b c)
    (hb : b.Closed) (hp : p.pin < b.pins.size) :
  (∃ name, f.nameAt p = .ok name) ∨ f.Nameless p ∧ f.nameAt p = fault .endless
  := by
  have hname : f.nameAt p = (do return c.name ++ ": " ++ (← b.pinName p.pin)) := by
    rw [nameAt, entry_eq_ok_iff.mpr hc.1, ok_bind, hc.2, ok_bind]
  have hs := Array.getElem?_eq_getElem hp
  by_cases hloop : b.Looped (b.pins[p.pin]).block
  · right
    use ⟨b, c, _, hc, hs, hloop⟩
    rw [hname, pinName_of_looped hs hloop]
    rfl
  · left
    obtain ⟨name, hpin⟩ := hb.exists_pinName hs hloop
    use c.name ++ ": " ++ name
    rw [hname, hpin]
    rfl

/-- The pins that the last round changed are named, unless the name of one has no end. -/
theorem Primed.changingPins_cases (hf : f.Primed) (htypes : ∀ b ∈ f.blockGraphs, b.Closed) :
  (∃ pending, f.changingPins = .ok pending
      ∧ List.Forall₂ (fun p name => f.nameAt p = .ok name) f.flagged pending)
    ∨ (∃ p ∈ f.flagged, f.Nameless p) ∧ f.changingPins = fault .endless
  := by
  cases hpending : f.changingPins with
  | ok pending =>
    left
    rw [hf.changingPins_eq] at hpending
    exact ⟨pending, rfl, mapM_eq_ok_iff.mp hpending⟩
  | error e =>
    right
    rw [hf.changingPins_eq] at hpending
    obtain ⟨p, hp, he⟩ := exists_of_mapM_eq_error hpending
    obtain ⟨c, hc, hid⟩ := mem_flagged_iff.mp hp
    obtain ⟨b, hb, hprimed⟩ := hf.clusters p.cluster c hc
    have hlt := Cluster.lt_of_mem_changedPins hid
    rw [hprimed.size] at hlt
    have hclosed := htypes b (Array.mem_of_getElem? (entry_eq_ok_iff.mp hb))
    rcases nameAt_cases ⟨hc, hb⟩ hclosed hlt with ⟨name, hname⟩ | ⟨hnameless, hendless⟩
    · rw [hname] at he
      cases he
    · use ⟨p, hp, hnameless⟩
      cases he.symm.trans hendless
      rfl

/-! ### Rounds one after another -/

/-- So many rounds lead to one fabric. -/
theorem Rounds.unique (h : f₀.Rounds n f) (h' : f₀.Rounds n f') : f = f' := by
  induction h generalizing f' with
  | none =>
    cases h'
    rfl
  | next before round ih =>
    cases h' with
    | next before' round' =>
      obtain rfl := ih before'
      apply (round.unique round').2

/-- A round that follows others is quiet exactly when it counts nothing. -/
theorem Rounds.quietRound_iff (h : f₀.Rounds n f) (hf : f.Primed)
    (hround : parasiticRound.Gives f count f') :
  f₀.QuietRound (n + 1) ↔ count = 0
  := by
  rw [(hf.advanced hround).eq_zero_iff hf]
  constructor
  · rintro ⟨m, g, count', g', heq, hrounds, hround', hquiet⟩
    obtain rfl : n = m := Nat.succ.inj heq
    obtain rfl := h.unique hrounds
    obtain ⟨-, rfl⟩ := hround.unique hround'
    apply hquiet
  · intro hquiet
    use n, f, count, f'

/-- There is no round before the first. -/
theorem not_quietRound_zero : ¬ f.QuietRound 0 := by
  rintro ⟨n, _, _, _, heq, -⟩
  cases heq

section

variable (hf₀ : f₀.Primed) (hsteady : f₀.Steady) (hlinks : ∀ q, ¬ TransGen f₀.graph.Linked q q)
include hf₀ hsteady hlinks

/-- After any number of rounds another one can be made. -/
theorem Rounds.exists_next (h : f₀.Rounds n f) :
  f.Primed ∧ ∃ count f', parasiticRound.Gives f count f'
  := by
  obtain ⟨hprimed, hsteady', hkept⟩ := h.kept hf₀ hsteady
  use hprimed
  apply hprimed.exists_round hsteady'
  intro p node _ _
  rw [RoutingGraph.linked_congr (graph_silent_eq (silent_of_withoutLogical_eq hkept.same))]
  apply hlinks

/-- After rounds none of which was quiet, further ones end with the first that is, if it is allowed.
-/
theorem Rounds.gives_roundsFrom_iff (h : f₀.Rounds done f)
    (hbefore : ∀ j ≤ done, ¬ f₀.QuietRound j) :
  (roundsFrom done more).Gives f k f' ↔ k ≤ done + more ∧ f₀.QuietRound k
    ∧ (∀ j < k, ¬ f₀.QuietRound j) ∧ f₀.Rounds k f'
  := by
  induction more generalizing f done with
  | zero =>
    constructor
    · intro hgives
      simp [roundsFrom] at hgives
    · rintro ⟨hle, hquiet, -⟩
      cases hbefore k hle hquiet
  | succ more ih =>
    obtain ⟨hprimed, count, f₁, hround⟩ := h.exists_next hf₀ hsteady hlinks
    have hquiet := h.quietRound_iff hprimed hround
    have hnext := h.next hround
    rw [gives_roundsFrom_succ_iff]
    by_cases hcount : count = 0
    · -- the next round is the first that is quiet
      constructor
      · rintro ⟨count', f₁', hround', ⟨-, rfl, rfl⟩ | ⟨hne, -⟩⟩
        · obtain ⟨-, rfl⟩ := hround.unique hround'
          refine ⟨by omega, hquiet.mpr hcount, ?_, hnext⟩
          intro j hj
          apply hbefore j (Nat.le_of_lt_succ hj)
        · obtain ⟨rfl, -⟩ := hround.unique hround'
          cases hne hcount
      · rintro ⟨-, hk, hfirst, hrounds⟩
        obtain rfl : done + 1 = k := by
          apply Nat.le_antisymm
          · by_contra hlt
            apply hbefore k (by omega) hk
          · by_contra hlt
            apply hfirst (done + 1) (by omega) (hquiet.mpr hcount)
        exact ⟨count, f₁, hround, .inl ⟨hcount, rfl, hnext.unique hrounds⟩⟩
    · have hbefore' : ∀ j ≤ done + 1, ¬ f₀.QuietRound j := by
        intro j hj
        rcases Nat.le_succ_iff.mp hj with hj | rfl
        · apply hbefore j hj
        · rw [hquiet]
          apply hcount
      have hrest := ih hnext hbefore'
      rw [Nat.add_assoc, Nat.add_comm 1] at hrest
      rw [← hrest]
      constructor
      · rintro ⟨count', f₁', hround', ⟨hzero, -⟩ | ⟨-, hgives⟩⟩
        · obtain ⟨rfl, -⟩ := hround.unique hround'
          cases hcount hzero
        · obtain ⟨-, rfl⟩ := hround.unique hround'
          apply hgives
      · intro hgives
        exact ⟨count, f₁, hround, .inr ⟨hcount, hgives⟩⟩

/-- Where none of the rounds that are allowed is quiet, all are made, and the last one decides what
is reported. -/
theorem Rounds.run_roundsFrom (h : f₀.Rounds done f)
    (hnone : ∀ j ≤ done + more, ¬ f₀.QuietRound j) :
  ∃ f', f₀.Rounds (done + more) f' ∧ ((roundsFrom done more).run f).state = f'
    ∧ ((roundsFrom done more).run f).outcome
      = (do fail (.propagationDiverged (done + more) (← f'.changingPins)))
  := by
  induction more generalizing f done with
  | zero =>
    refine ⟨f, h, ?_⟩
    have hstate := (Phase.gives_state_iff.mpr ⟨rfl, rfl⟩ : Phase.state.Gives f f f).run_bind
      (f := fun f => do
        let pending ← Phase.lift f.changingPins
        Phase.report (.diverged pending)
        Phase.lift (fail (.propagationDiverged done pending) : Outcome Nat))
    rw [roundsFrom, hstate.1, hstate.2]
    cases hpending : f.changingPins with
    | ok pending =>
      rw [Phase.run_bind_of_ok (Phase.run_lift (.ok pending) f)]
      exact ⟨rfl, rfl⟩
    | error e =>
      rw [Phase.run_bind_of_error (Phase.run_lift (.error e) f)]
      exact ⟨rfl, rfl⟩
  | succ more ih =>
    obtain ⟨hprimed, count, f₁, hround⟩ := h.exists_next hf₀ hsteady hlinks
    have hcount : count ≠ 0 := by
      rw [Ne, ← h.quietRound_iff hprimed hround]
      apply hnone (done + 1)
      omega
    have hsum : done + (more + 1) = done + 1 + more := by omega
    rw [hsum] at hnone ⊢
    obtain ⟨f', hrounds, hrest⟩ := ih (h.next hround) hnone
    use f', hrounds
    obtain ⟨houtcome, hstate⟩ := hround.run_bind (f := fun count => do
      if count = 0 then
        Phase.report (.settled (done + 1))
        return done + 1
      else roundsFrom (done + 1) more)
    simp only [if_neg hcount] at houtcome hstate
    rw [roundsFrom, houtcome, hstate]
    apply hrest

end

/-! ### From preparation on -/

/-- Once clusters are annotated, rounds end with the first that changes no input, if it is allowed,
and the number of it is given. Otherwise all that are allowed are made, and the inputs that the last
one changed are reported in order, unless the name of one has no end. -/
theorem propagateParasitic_exact {skip : Bool} {stats : RoutingStats}
    (hprepare : prepare.Gives f₀ () f₁) (htrace : (traceNets skip).Gives f₁ stats f₂)
    (hclusters : annotateClusters.Gives f₂ () f) (hlinks : ∀ q, ¬ TransGen f.graph.Linked q q)
    (most : Nat) :
  (∀ k f', (propagateParasitic most).Gives f k f' ↔ 1 ≤ k ∧ k ≤ most ∧ f.QuietRound k
      ∧ (∀ j < k, ¬ f.QuietRound j) ∧ f.Rounds k f')
    ∧ ((∀ k ≤ most, ¬ f.QuietRound k) → ∃ f' ps, f.Rounds most f'
      ∧ ((propagateParasitic most).run f).state = f'
      ∧ f'.Reports most ps ((propagateParasitic most).run f).outcome
      ∧ ∀ n, most = n + 1 → ∃ g, f.Rounds n g ∧ ps ≠ [] ∧ ∀ p, p ∈ ps ↔ g.Moves f' p)
  := by
  have hready := ready_of_phases hprepare htrace hclusters
  have hf := hready.primed
  have hsteady := hready.steady
  constructor
  · intro k f'
    have hbefore : ∀ j ≤ 0, ¬ f.QuietRound j := by
      intro j hj
      rw [Nat.le_zero.mp hj]
      apply not_quietRound_zero
    rw [propagateParasitic, Rounds.none.gives_roundsFrom_iff hf hsteady hlinks hbefore,
      Nat.zero_add]
    constructor
    · rintro ⟨hle, hquiet, hrest⟩
      refine ⟨?_, hle, hquiet, hrest⟩
      apply Nat.one_le_iff_ne_zero.mpr
      rintro rfl
      apply not_quietRound_zero hquiet
    · rintro ⟨-, h⟩
      apply h
  · intro hnone
    rw [← Nat.zero_add most] at hnone
    obtain ⟨f', hrounds, hstate, houtcome⟩ :=
      Rounds.none.run_roundsFrom hf hsteady hlinks hnone
    rw [Nat.zero_add] at hrounds houtcome hnone
    obtain ⟨hprimed, -, hkept⟩ := hrounds.kept hf hsteady
    have htypes : ∀ b ∈ f'.blockGraphs, b.Closed := by
      rw [blockGraphs_congr (silent_of_withoutLogical_eq hkept.same), hready.types]
      apply (checked_of_prepare hprepare).types
    refine ⟨f', f'.flagged, hrounds, hstate, ⟨pairwise_flagged f', ?_⟩, ?_⟩
    · rw [propagateParasitic, houtcome]
      rcases hprimed.changingPins_cases htypes with ⟨pending, hpending, hnames⟩ | ⟨hp, hendless⟩
      · left
        use pending, hnames
        rw [hpending]
        rfl
      · right
        use hp
        rw [hendless]
        rfl
    · rintro n rfl
      cases hrounds with
      | @next _ count g _ before round =>
        obtain ⟨hg, -, -⟩ := before.kept hf hsteady
        have hnext := hg.advanced round
        refine ⟨g, before, ?_, fun p => hnext.mem_flagged_iff hg⟩
        rw [Ne, flagged_eq_nil_iff, ← hnext.counted, ← before.quietRound_iff hg round]
        apply hnone (n + 1) (Nat.le_refl _)

/-- The fourth round on the ladder is the first that changes no input, and if no more than three are
allowed, the inputs are reported that the third one changed. -/
theorem exact_ladder :
  prepare.Gives ladderFabric () preparedLadder
    ∧ (traceNets true).Gives preparedLadder ⟨4, 0, 8⟩ tracedLadder
    ∧ annotateClusters.Gives tracedLadder () annotatedLadder
    ∧ (∀ q, ¬ TransGen annotatedLadder.graph.Linked q q)
    ∧ annotatedLadder.QuietRound 4 ∧ (∀ j < 4, ¬ annotatedLadder.QuietRound j)
    ∧ ∃ f' ps, annotatedLadder.Rounds 3 f' ∧ ps ≠ []
      ∧ f'.Reports 3 ps ((propagateParasitic 3).run annotatedLadder).outcome
  := by
  obtain ⟨hgives, -⟩ := propagateParasitic_exact prepare_ladderFabric traceNets_preparedLadder
    annotateClusters_tracedLadder not_transGen_linked_ladder 4
  obtain ⟨-, -, -, -, -, hfour⟩ := outcomes_ladder
  obtain ⟨-, -, hquiet, hfirst, -⟩ := (hgives 4 _).mp ⟨hfour, rfl⟩
  obtain ⟨-, hreport⟩ := propagateParasitic_exact prepare_ladderFabric traceNets_preparedLadder
    annotateClusters_tracedLadder not_transGen_linked_ladder 3
  obtain ⟨f', ps, hrounds, -, hreports, hlast⟩ := hreport fun k hk => hfirst k (by omega)
  obtain ⟨-, -, hps, -⟩ := hlast 2 rfl
  exact ⟨prepare_ladderFabric, traceNets_preparedLadder, annotateClusters_tracedLadder,
    not_transGen_linked_ladder, hquiet, hfirst, f', ps, hrounds, hps, hreports⟩

/-- The ladder, with a block that is its own parent. -/
def loopedLadder : Fabric :=
  { ladderFabric with
    blockGraphs := #[{ ladderBlock with
      blocks := ladderBlock.blocks.modify 0 fun block => { block with parent := some (0, 0) } }] }

/-- The ladder with such a block, after preparation. -/
def preparedLoopedLadder : Fabric :=
  ((Phase.each prepareCluster [0]).run { loopedLadder with graph := indexedLadder }).state

/-- The ladder with such a block is prepared. -/
theorem prepare_loopedLadder : prepare.Gives loopedLadder () preparedLoopedLadder := by
  apply prepare_of_inOrder rfl (g := indexedLadder)
  · decide
  · constructor
    · decide +kernel
    · rfl
  · decide +kernel
  · constructor
    · decide +kernel
    · rfl

/-- Where the block of a pin is its own parent, three rounds do not end with a report, though a
fourth one would end them. -/
theorem endless_report :
  ∃ f₂ f, prepare.Gives loopedLadder () preparedLoopedLadder
    ∧ (traceNets true).Gives preparedLoopedLadder ⟨4, 0, 8⟩ f₂
    ∧ annotateClusters.Gives f₂ () f ∧ (∀ q, ¬ TransGen f.graph.Linked q q)
    ∧ ((propagateParasitic 3).run f).outcome = fault .endless
    ∧ ((propagateParasitic 4).run f).outcome = .ok 4
  := by
  refine ⟨_, _, prepare_loopedLadder, ⟨?_, rfl⟩, ⟨?_, rfl⟩, not_transGen_of_lt ?_, ?_, ?_⟩
  · decide +kernel
  · decide +kernel
  · intro p q h
    apply h.of_selected
    decide +kernel
  · decide +kernel
  · decide +kernel

end Fabric

end RoutingFabric
