import RoutingFabric.Proofs.RoutingGraph.Walk

/-!
# Tracing accepts the legal traces

Tracing walks the nets one after another and fails at the first node that does not fit. Whether it
succeeds does not depend on that order: it does exactly if each net that is not left out has a
legal trace, and no two of these traces share a node. The annotation of every node is then read
off the traces.
-/

namespace RoutingFabric

/-- The net belongs to the table and is not left out. -/
def NetTable.Routed (t : NetTable) (skipDedicated : Bool) (net : NetId) (n : Net) : Prop :=
  t.nets[net]? = some n ∧ ¬ (n.dedicated && skipDedicated)

/-- The net is not left out, and its trace holds the node. -/
def NetTable.Holds (t : NetTable) (skipDedicated : Bool) (net : NetId) (id : NodeId) : Prop :=
  ∃ n, t.Routed skipDedicated net n ∧ id ∈ n.trace

namespace RoutingGraph

/-- The net is not left out, and its trace leads from one node on to the other. -/
def LeadsAlong (t : NetTable) (skipDedicated : Bool) (g : RoutingGraph) (net : NetId)
    (p q : NodeId) : Prop :=
  ∃ n, t.Routed skipDedicated net n ∧ g.Leads n.trace p q

/-- The nets that are not left out can all be traced. -/
structure LegalTraces (t : NetTable) (skipDedicated : Bool) (g : RoutingGraph) : Prop where
  /-- each has a trace that can be walked -/
  legal : ∀ net n, t.Routed skipDedicated net n → n.trace ≠ [] ∧ g.LegalTrace n.trace
  /-- no two of them share a node -/
  apart : ∀ net net' id, t.Holds skipDedicated net id → t.Holds skipDedicated net' id → net = net'

/-- The graph is another one after tracing. -/
structure Traced (t : NetTable) (skipDedicated : Bool) (g₀ : RoutingGraph) (stats : RoutingStats)
    (g : RoutingGraph) : Prop where
  /-- nets hold the nodes of their traces, and nodes lead to those that come next -/
  marked : Marked t g₀ (t.Holds skipDedicated)
    (fun p q => ∃ net, LeadsAlong t skipDedicated g₀ net p q) g
  /-- the nodes with a net are counted -/
  annotated : stats.annotated = g.claimed

variable {t : NetTable} {net : NetId} {g₀ g g' : RoutingGraph} {count : Nat}

/-! ### One net more -/

/-- The nets before one have been traced. -/
structure TracedBefore (t : NetTable) (skipDedicated : Bool) (g₀ : RoutingGraph) (next : NetId)
    (stats : RoutingStats) (g : RoutingGraph) : Prop where
  legal : ∀ net < next, ∀ n, t.Routed skipDedicated net n → n.trace ≠ [] ∧ g₀.LegalTrace n.trace
  apart : ∀ net < next, ∀ net' < next, ∀ id, t.Holds skipDedicated net id →
    t.Holds skipDedicated net' id → net = net'
  marked : Marked t g₀ (fun net id => net < next ∧ t.Holds skipDedicated net id)
    (fun p q => ∃ net < next, LeadsAlong t skipDedicated g₀ net p q) g
  annotated : stats.annotated = g.claimed

/-- A table has one net of an id. -/
theorem routed_unique {skip : Bool} {n m : Net} (hn : t.Routed skip net n)
    (hm : t.Routed skip net m) :
  n = m
  := Option.some.inj (hn.1.symm.trans hm.1)

/-- A net that is not left out holds the nodes of its trace. -/
theorem holds_iff {skip : Bool} {n : Net} (hn : t.Routed skip net n) (id : NodeId) :
  t.Holds skip net id ↔ id ∈ n.trace
  := by
  constructor
  · rintro ⟨m, hm, hid⟩
    rw [routed_unique hn hm]
    apply hid
  · intro hid
    use n

/-- A net that is not left out leads along its trace. -/
theorem leadsAlong_iff {skip : Bool} {n : Net} (hn : t.Routed skip net n) (p q : NodeId) :
  LeadsAlong t skip g net p q ↔ g.Leads n.trace p q
  := by
  constructor
  · rintro ⟨m, hm, hleads⟩
    rw [routed_unique hn hm]
    apply hleads
  · intro hleads
    use n

/-- A net that leads to a node holds it. -/
theorem LeadsAlong.holds {skip : Bool} {p q : NodeId} (h : LeadsAlong t skip g net p q) :
  t.Holds skip net q
  := by
  obtain ⟨n, hn, hleads⟩ := h
  use n, hn, hleads.mem

/-- Before any net is traced, no node is held or led to. -/
theorem tracedBefore_zero (skip : Bool) : TracedBefore t skip g 0 {} g.unannotated := by
  have hnone : ∀ id n, g.unannotated.node id = .ok n → n.net = none ∧ n.logical = none
      ∧ n.selected = none := by
    intro id n hn
    simp only [unannotated, node, entry_eq_ok_iff, Array.getElem?_map] at hn
    obtain ⟨old, -, rfl⟩ := Option.map_eq_some_iff.mp hn
    exact ⟨rfl, rfl, rfl⟩
  constructor
  case legal => simp
  case apart => simp
  case marked =>
    constructor
    · simp only [unannotated, Array.map_map]
      rfl
    · intro id n hn
      obtain ⟨hnet, hlogical, hselected⟩ := hnone id n hn
      constructor
      · simp [hnet]
      · rw [hnet, hlogical]
        rfl
      · simp [hselected]
  case annotated =>
    symm
    apply Array.countP_eq_zero.mpr
    intro n hn
    obtain ⟨id, hid, rfl⟩ := Array.mem_iff_getElem.mp hn
    simp [(hnone id _ (entry_of_lt hid)).1]

/-- A net that is left out adds nothing. -/
theorem TracedBefore.skip {next : NetId} {skip : Bool} {n : Net} {stats stats' : RoutingStats}
    (h : TracedBefore t skip g₀ next stats g) (hn : t.nets[next]? = some n)
    (hskip : n.dedicated && skip) (hstats : stats'.annotated = stats.annotated) :
  TracedBefore t skip g₀ (next + 1) stats' g
  := by
  have hout : ∀ m, ¬ t.Routed skip next m := by
    rintro m ⟨hm, hroute⟩
    rw [hn] at hm
    cases hm
    apply hroute hskip
  have hholds : ∀ id, ¬ t.Holds skip next id := by
    rintro id ⟨m, hm, -⟩
    apply hout m hm
  constructor
  case legal =>
    rw [Nat.forall_lt_succ_right]
    use h.legal
    intro m hm
    cases hout m hm
  case apart =>
    intro k hk k' hk' id hid hid'
    rcases Nat.lt_succ_iff_lt_or_eq.mp hk with hk | rfl
    · rcases Nat.lt_succ_iff_lt_or_eq.mp hk' with hk' | rfl
      · apply h.apart k hk k' hk' id hid hid'
      · cases hholds id hid'
    · cases hholds id hid
  case marked =>
    apply h.marked.congr
    · intro k id
      rw [Nat.lt_succ_iff_lt_or_eq, or_and_right, or_iff_left_iff_imp]
      rintro ⟨rfl, hid⟩
      cases hholds id hid
    · intro p q
      rw [Nat.exists_lt_succ_right, or_iff_left_iff_imp]
      intro hleads
      cases hholds q hleads.holds
  case annotated => rw [hstats, h.annotated]

/-- Before a net is traced, nothing of its trace has been walked. -/
theorem TracedBefore.underway {next : NetId} {skip : Bool} {n : Net} {stats : RoutingStats}
    (h : TracedBefore t skip g₀ next stats g) (hn : t.nets[next]? = some n) :
  Underway t g₀ next (fun net id => net < next ∧ t.Holds skip net id)
    (fun p q => ∃ net < next, LeadsAlong t skip g₀ net p q) [] g
  := by
  constructor
  case listed => apply (Array.getElem?_eq_some_iff.mp hn).1
  case others =>
    rintro k q ⟨hk, -⟩
    apply Nat.ne_of_lt hk
  case entered =>
    rintro p q ⟨k, hk, hleads⟩
    exact ⟨k, hk, hleads.holds⟩
  case legal => apply legalTrace_nil
  case free => simp
  case marked =>
    apply h.marked.congr
    · simp
    · intro p q
      rw [or_iff_left_iff_imp]
      intro hleads
      cases hleads.mem

/-- Once the trace of a net has been walked, the net has been traced. -/
theorem TracedBefore.step {next : NetId} {skip : Bool} {n : Net} {stats stats' : RoutingStats}
    (h : TracedBefore t skip g₀ next stats g) (hn : t.Routed skip next n) (hne : n.trace ≠ [])
    (hunder : Underway t g₀ next (fun net id => net < next ∧ t.Holds skip net id)
      (fun p q => ∃ net < next, LeadsAlong t skip g₀ net p q) n.trace g')
    (hstats : stats'.annotated = g'.claimed) :
  TracedBefore t skip g₀ (next + 1) stats' g'
  := by
  have hapart : ∀ k < next, ∀ id, t.Holds skip k id → ¬ t.Holds skip next id := by
    intro k hk id hid hid'
    apply hunder.free k id ((holds_iff hn id).mp hid') ⟨hk, hid⟩
  constructor
  case legal =>
    rw [Nat.forall_lt_succ_right]
    use h.legal
    intro m hm
    rw [← routed_unique hn hm]
    exact ⟨hne, hunder.legal⟩
  case apart =>
    intro k hk k' hk' id hid hid'
    rcases Nat.lt_succ_iff_lt_or_eq.mp hk with hk | rfl
    · rcases Nat.lt_succ_iff_lt_or_eq.mp hk' with hk' | rfl
      · apply h.apart k hk k' hk' id hid hid'
      · cases hapart k hk id hid hid'
    · rcases Nat.lt_succ_iff_lt_or_eq.mp hk' with hk' | rfl
      · cases hapart k' hk' id hid' hid
      · rfl
  case marked =>
    apply hunder.marked.congr
    · intro k id
      rw [Nat.lt_succ_iff_lt_or_eq, or_and_right, ← holds_iff hn]
      apply or_congr_right
      apply and_congr_right
      rintro rfl
      rfl
    · intro p q
      rw [Nat.exists_lt_succ_right, leadsAlong_iff hn]
  case annotated => apply hstats

/-! ### All nets -/

/-- A net that is traced, or left out, is one net more. -/
theorem TracedBefore.traceNet {next : NetId} {skip : Bool} {n : Net} {stats stats' : RoutingStats}
    (h : TracedBefore t skip g₀ next stats g) (hn : t.nets[next]? = some n)
    (hok : (traceNet t next skip n stats).Gives g stats' g') :
  TracedBefore t skip g₀ (next + 1) stats' g'
  := by
  rw [RoutingGraph.traceNet] at hok
  split at hok
  · rename_i hskip
    obtain ⟨_, _, hreport, hok⟩ := Phase.gives_bind_iff.mp hok
    obtain rfl := Phase.gives_report_iff.mp hreport
    obtain ⟨rfl, rfl⟩ := Phase.gives_pure_iff.mp hok
    apply h.skip hn hskip
    rfl
  · rename_i hskip
    split at hok
    · simp at hok
    · rename_i hne
      simp only [Phase.gives_bind_iff, Phase.gives_state_iff, Phase.gives_lift_iff,
        Phase.gives_put_iff, Phase.gives_pure_iff] at hok
      obtain ⟨_, _, ⟨rfl, rfl⟩, ⟨count, g''⟩, _, ⟨hwalk, rfl⟩, _, _, rfl, rfl, rfl⟩ := hok
      apply h.step ⟨hn, hskip⟩ _ ((h.underway hn).walk hwalk)
      · rw [claimed_of_walkTrace hwalk, h.annotated]
      · simpa using hne

/-- A net can be traced if all traces are legal. -/
theorem TracedBefore.exists_traceNet {next : NetId} {skip : Bool} {n : Net} {stats : RoutingStats}
    (h : TracedBefore t skip g₀ next stats g) (hn : t.nets[next]? = some n)
    (hlegal : LegalTraces t skip g₀) :
  ∃ stats' g', (RoutingGraph.traceNet t next skip n stats).Gives g stats' g'
  := by
  rw [RoutingGraph.traceNet]
  split
  · exact ⟨_, g, Phase.gives_bind_iff.mpr ⟨(), g, Phase.gives_report_iff.mpr rfl,
      Phase.gives_pure_iff.mpr ⟨rfl, rfl⟩⟩⟩
  · rename_i hskip
    obtain ⟨hne, htrace⟩ := hlegal.legal next n ⟨hn, hskip⟩
    have hfree : ∀ k, ∀ q ∈ n.trace, ¬ (k < next ∧ t.Holds skip k q) := by
      rintro k q hq ⟨hk, hq'⟩
      apply Nat.ne_of_lt hk
      apply hlegal.apart k next q hq' ⟨n, ⟨hn, hskip⟩, hq⟩
    obtain ⟨count, g', hwalk⟩ := (h.underway hn).exists_walk htrace hfree
    rw [if_neg (by simpa using hne)]
    simp only [Phase.gives_bind_iff, Phase.gives_state_iff, Phase.gives_lift_iff,
      Phase.gives_put_iff, Phase.gives_pure_iff]
    exact ⟨_, _, g, g, ⟨rfl, rfl⟩, (count, g'), g, ⟨hwalk, rfl⟩, (), g', rfl, rfl, rfl⟩

/-- The nets from an id on are the net of the id and those after it. -/
theorem net_of_drop_eq_cons {next : NetId} {n : Net} {ns : List Net}
    (hns : t.nets.toList.drop next = n :: ns) :
  t.nets[next]? = some n ∧ t.nets.toList.drop (next + 1) = ns
  := by
  constructor
  · have := congrArg (fun ns => ns[0]?) hns
    simpa using this
  · rw [← List.tail_drop, hns, List.tail_cons]

/-- Once the nets of a list have been traced, nets have been traced up to its end. -/
theorem TracedBefore.traceNets {next : NetId} {skip : Bool} {ns : List Net}
    {stats stats' : RoutingStats} (h : TracedBefore t skip g₀ next stats g)
    (hns : t.nets.toList.drop next = ns)
    (hok : (traceNets t skip next stats ns).Gives g stats' g') :
  TracedBefore t skip g₀ (next + ns.length) stats' g'
  := by
  induction ns generalizing next stats g with
  | nil =>
    obtain ⟨rfl, rfl⟩ := Phase.gives_pure_iff.mp hok
    apply h
  | cons n ns ih =>
    obtain ⟨stats'', g'', hnet, hok⟩ := Phase.gives_bind_iff.mp hok
    obtain ⟨hn, hrest⟩ := net_of_drop_eq_cons hns
    have := ih (h.traceNet hn hnet) hrest hok
    rwa [List.length_cons, Nat.add_comm ns.length, ← Nat.add_assoc]

/-- The nets of a list can be traced if all traces are legal. -/
theorem TracedBefore.exists_traceNets {next : NetId} {skip : Bool} {ns : List Net}
    {stats : RoutingStats} (h : TracedBefore t skip g₀ next stats g)
    (hns : t.nets.toList.drop next = ns) (hlegal : LegalTraces t skip g₀) :
  ∃ stats' g', (RoutingGraph.traceNets t skip next stats ns).Gives g stats' g'
  := by
  induction ns generalizing next stats g with
  | nil => exact ⟨stats, g, Phase.gives_pure_iff.mpr ⟨rfl, rfl⟩⟩
  | cons n ns ih =>
    obtain ⟨hn, hrest⟩ := net_of_drop_eq_cons hns
    obtain ⟨stats'', g'', hnet⟩ := h.exists_traceNet hn hlegal
    obtain ⟨stats', g', hok⟩ := ih (h.traceNet hn hnet) hrest
    exact ⟨stats', g', Phase.gives_bind_iff.mpr ⟨stats'', g'', hnet, hok⟩⟩

/-- A net that is not left out is below the size of the table. -/
theorem routed_lt {skip : Bool} {n : Net} (h : t.Routed skip net n) : net < t.nets.size :=
  (Array.getElem?_eq_some_iff.mp h.1).1

/-- After all nets are traced, those before the end of the table have been. -/
theorem tracedBefore_of_traceAll {skip : Bool} {stats : RoutingStats}
    (h : (traceAll t skip).Gives g stats g') :
  TracedBefore t skip g t.nets.size stats g'
  := by
  simp only [traceAll, Phase.gives_bind_iff, Phase.gives_state_iff, Phase.gives_put_iff,
    Phase.gives_report_iff, Phase.gives_pure_iff] at h
  obtain ⟨_, _, ⟨rfl, rfl⟩, _, _, rfl, _, _, htrace, _, _, rfl, rfl, rfl⟩ := h
  simpa using (tracedBefore_zero skip).traceNets rfl htrace

/-- All nets can be traced if all traces are legal. -/
theorem exists_traceAll {skip : Bool} (h : LegalTraces t skip g) :
  ∃ stats g', (traceAll t skip).Gives g stats g'
  := by
  obtain ⟨stats, g', hnets⟩ := (tracedBefore_zero skip).exists_traceNets rfl h
  use stats, g'
  simp only [traceAll, Phase.gives_bind_iff, Phase.gives_state_iff, Phase.gives_put_iff,
    Phase.gives_report_iff, Phase.gives_pure_iff]
  exact ⟨g, g, ⟨rfl, rfl⟩, (), _, rfl, stats, g', hnets, (), g', rfl, rfl, rfl⟩

/-- Nets that have all been traced are legal. -/
theorem TracedBefore.legalTraces {skip : Bool} {stats : RoutingStats}
    (h : TracedBefore t skip g₀ t.nets.size stats g) :
  LegalTraces t skip g₀
  := by
  constructor
  case legal =>
    intro k n hn
    apply h.legal k (routed_lt hn) n hn
  case apart =>
    rintro k k' id ⟨n, hn, hid⟩ ⟨n', hn', hid'⟩
    apply h.apart k (routed_lt hn) k' (routed_lt hn') id ⟨n, hn, hid⟩ ⟨n', hn', hid'⟩

/-- A graph on which all nets have been traced is annotated with them. -/
theorem TracedBefore.traced {skip : Bool} {stats : RoutingStats}
    (h : TracedBefore t skip g₀ t.nets.size stats g) :
  Traced t skip g₀ stats g
  := by
  refine ⟨h.marked.congr ?_ ?_, h.annotated⟩
  · intro k id
    symm
    rw [and_iff_right_iff_imp]
    rintro ⟨n, hn, -⟩
    apply routed_lt hn
  · intro p q
    apply exists_congr
    intro k
    symm
    rw [and_iff_right_iff_imp]
    rintro ⟨n, hn, -⟩
    apply routed_lt hn

/-- All nets can be traced exactly if their traces are legal. The graph is then annotated with
them. -/
theorem gives_traceAll_iff_legal (t : NetTable) (skip : Bool) (g : RoutingGraph) :
  ((∃ stats g', (traceAll t skip).Gives g stats g') ↔ LegalTraces t skip g)
    ∧ ∀ stats g', (traceAll t skip).Gives g stats g' → Traced t skip g stats g'
  := by
  refine ⟨⟨?_, exists_traceAll⟩, ?_⟩
  · rintro ⟨stats, g', h⟩
    apply (tracedBefore_of_traceAll h).legalTraces
  · intro stats g' h
    apply (tracedBefore_of_traceAll h).traced

/-- A pin that drives a wire, from which two sinks are reached. -/
def forkGraph : RoutingGraph where
  nodes := #[
    { kind := .outPin, low := ⟨0, 0⟩, high := ⟨0, 0⟩, ptc := 0, edges := [⟨1, 0⟩] },
    { kind := .channelX, low := ⟨0, 0⟩, high := ⟨1, 0⟩, ptc := 0, direction := some .increasing,
      fanIn := 1, edges := [⟨2, 0⟩, ⟨3, 0⟩], drivers := [⟨0, 0, 0⟩] },
    { kind := .sink, low := ⟨1, 0⟩, high := ⟨1, 0⟩, ptc := 0, fanIn := 1, drivers := [⟨1, 0, 0⟩] },
    { kind := .sink, low := ⟨1, 0⟩, high := ⟨1, 0⟩, ptc := 1, fanIn := 1, drivers := [⟨1, 1, 0⟩] }]

/-- A net whose trace reaches one sink, rejoins the wire and reaches the other. -/
def forkNets : NetTable where
  nets := #[{ name := "fork", logical := 7, trace := [0, 1, 2, 1, 3] }]
  logicals := #[]

/-- The net is traced over all nodes. -/
theorem traced_fork :
  ((traceAll forkNets false).run forkGraph).outcome = .ok { routed := 1, annotated := 4 }
    ∧ LegalTraces forkNets false forkGraph
    ∧ Traced forkNets false forkGraph { routed := 1, annotated := 4 }
      ((traceAll forkNets false).run forkGraph).state
  := by
  have hgives : (traceAll forkNets false).Gives forkGraph { routed := 1, annotated := 4 }
      ((traceAll forkNets false).run forkGraph).state := ⟨by decide +kernel, rfl⟩
  obtain ⟨hlegal, htraced⟩ := gives_traceAll_iff_legal forkNets false forkGraph
  exact ⟨hgives.1, hlegal.mp ⟨_, _, hgives⟩, htraced _ _ hgives⟩

end RoutingGraph

end RoutingFabric
