import RoutingFabric.Proofs.RoutingGraph.Marks

/-!
# Walking one trace

The trace of a net is walked after those of other nets. A node is entered exactly if it fits after
the part of the trace that has been walked and no other net holds it, and it is then held by the
net. So a trace is walked to its end exactly if it is legal and shares no node with the others.
-/

namespace RoutingFabric.RoutingGraph

/-- A part of the trace of a net has been walked, after other nets that hold some nodes and along
which some nodes lead to others. -/
structure Underway (t : NetTable) (g₀ : RoutingGraph) (net : NetId) (holds : NetId → NodeId → Prop)
    (leads : NodeId → NodeId → Prop) (trace : List NodeId) (g : RoutingGraph) : Prop where
  listed : net < t.nets.size
  others : ∀ k q, holds k q → k ≠ net
  entered : ∀ p q, leads p q → ∃ k, holds k q
  legal : g₀.LegalTrace trace
  free : ∀ k, ∀ q ∈ trace, ¬ holds k q
  marked : Marked t g₀ (fun k q => holds k q ∨ k = net ∧ q ∈ trace)
    (fun p q => leads p q ∨ g₀.Leads trace p q) g

variable {t : NetTable} {net : NetId} {g₀ g g' : RoutingGraph} {count : Nat}
variable {holds : NetId → NodeId → Prop} {leads : NodeId → NodeId → Prop} {trace : List NodeId}

/-! ### One node -/

/-- A node that is entered fits after the trace, and the trace goes on with it. -/
theorem Underway.concat {id : NodeId} (h : Underway t g₀ net holds leads trace g)
    (hfits : g₀.Fits trace id) (hfree : ∀ k, ¬ holds k id)
    (hmarked : Marked t g₀ (fun k q => holds k q ∨ k = net ∧ q ∈ trace ++ [id])
      (fun p q => leads p q ∨ g₀.Leads (trace ++ [id]) p q) g') :
  Underway t g₀ net holds leads (trace ++ [id]) g'
  := by
  refine ⟨h.listed, h.others, h.entered, h.legal.concat hfits, ?_, hmarked⟩
  intro k q hq
  rcases List.mem_append.mp hq with hq | hq
  · apply h.free k q hq
  · rw [List.mem_singleton.mp hq]
    apply hfree

/-- What a claim shows of a node: no earlier net holds it. -/
theorem Underway.free_of_claim {id : NodeId} (h : Underway t g₀ net holds leads trace g)
    (hclaim : ∀ k, holds k id ∨ k = net ∧ id ∈ trace → k = net) (k : NetId) :
  ¬ holds k id
  := by
  intro hk
  apply h.others k id hk
  apply hclaim k
  left
  apply hk

/-- The first node of a trace is claimed. -/
theorem Underway.begin {id : NodeId} (h : Underway t g₀ net holds leads trace g)
    (hid : id < g₀.size) (hstanding : g₀.standing trace = .start)
    (hok : enter t net g .start id = .ok (count, g')) :
  Underway t g₀ net holds leads (trace ++ [id]) g'
  := by
  obtain ⟨hclaim, hmarked⟩ := h.marked.claim hok
  have hfits : g₀.Fits trace id := by
    constructor <;> simp [hid, hstanding]
  refine h.concat hfits (h.free_of_claim hclaim) (hmarked.congr ?_ ?_)
  · intro k q
    simp [or_assoc, and_or_left]
  · intro p q
    simp [leads_concat_iff, hstanding]

/-- A node after a sink has been entered before. -/
theorem Underway.rejoin {id : NodeId} (h : Underway t g₀ net holds leads trace g)
    (hid : id < g₀.size) (hstanding : g₀.standing trace = .branch)
    (hok : enter t net g .branch id = .ok (count, g')) :
  Underway t g₀ net holds leads (trace ++ [id]) g'
  := by
  obtain ⟨n, hn, hok⟩ := bind_eq_ok_iff.mp hok
  split at hok
  · rename_i hnet
    cases pure_eq_ok_iff.mp hok
    have hmem : id ∈ trace := by
      rcases ((h.marked.nodes id n hn).net net).mp hnet with hheld | ⟨-, hmem⟩
      · cases h.others net id hheld rfl
      · apply hmem
    have hfits : g₀.Fits trace id := by
      constructor <;> simp [hid, hstanding, hmem]
    refine h.concat hfits (fun k => h.free k id hmem) (h.marked.congr ?_ ?_)
    · intro k q
      have hsame : q ∈ trace ++ [id] ↔ q ∈ trace := by
        simp only [List.mem_append, List.mem_singleton, or_iff_left_iff_imp]
        rintro rfl
        apply hmem
      rw [hsame]
    · intro p q
      simp [leads_concat_iff, hstanding]
  · cases fail_ne_ok hok

/-- A node after another one is claimed and selects it as its driver. -/
theorem Underway.follow {id driver : NodeId} (h : Underway t g₀ net holds leads trace g)
    (hid : id < g₀.size) (hstanding : g₀.standing trace = .from driver)
    (hok : enter t net g (.from driver) id = .ok (count, g')) :
  Underway t g₀ net holds leads (trace ++ [id]) g'
  := by
  obtain ⟨⟨count', g''⟩, hclaims, hok⟩ := bind_eq_ok_iff.mp hok
  obtain ⟨last, hselects, hok⟩ := bind_eq_ok_iff.mp hok
  cases pure_eq_ok_iff.mp hok
  obtain ⟨hclaim, hmarked⟩ := h.marked.claim hclaims
  obtain ⟨hdriver, honly, hmarked⟩ := hmarked.selectDriver hselects
  have hfits : g₀.Fits trace id := by
    constructor
    case known => apply hid
    case driven =>
      intro p hp
      rw [hstanding] at hp
      cases hp
      use hdriver
      intro p' hp'
      apply honly p' (.inr hp')
      apply h.legal.driven p' id hp'
    case rejoins => simp [hstanding]
  refine h.concat hfits (h.free_of_claim hclaim) (hmarked.congr ?_ ?_)
  · intro k q
    simp [or_assoc, and_or_left]
  · intro p q
    simp [leads_concat_iff, hstanding, or_assoc, and_comm, eq_comm]

/-- A node that is entered fits after the trace, is held by no earlier net, and becomes part of
the trace. -/
theorem Underway.enter {id : NodeId} (h : Underway t g₀ net holds leads trace g)
    (hid : id < g₀.size) (hok : enter t net g (g₀.standing trace) id = .ok (count, g')) :
  Underway t g₀ net holds leads (trace ++ [id]) g'
  := by
  cases hstanding : g₀.standing trace with
  | start =>
    rw [hstanding] at hok
    apply h.begin hid hstanding hok
  | branch =>
    rw [hstanding] at hok
    apply h.rejoin hid hstanding hok
  | «from» driver =>
    rw [hstanding] at hok
    apply h.follow hid hstanding hok

/-- A node that is entered is added to those with a net if it is counted. -/
theorem claimed_of_enter {standing : TraceState} {id : NodeId}
    (h : enter t net g standing id = .ok (count, g')) :
  g'.claimed = g.claimed + count
  := by
  cases standing with
  | start => apply claimed_of_claim h
  | «from» driver =>
    obtain ⟨⟨here, g''⟩, hclaim, h⟩ := bind_eq_ok_iff.mp h
    obtain ⟨last, hselect, h⟩ := bind_eq_ok_iff.mp h
    cases pure_eq_ok_iff.mp h
    rw [claimed_of_selectDriver hselect, claimed_of_claim hclaim]
  | branch =>
    obtain ⟨n, -, h⟩ := bind_eq_ok_iff.mp h
    split at h
    · cases pure_eq_ok_iff.mp h
      rfl
    · cases fail_ne_ok h

/-- A node that fits after the trace and is held by no earlier net can be entered. -/
theorem Underway.exists_enter {id : NodeId} (h : Underway t g₀ net holds leads trace g)
    (hfits : g₀.Fits trace id) (hfree : ∀ k, ¬ holds k id) :
  ∃ count g', RoutingGraph.enter t net g (g₀.standing trace) id = .ok (count, g')
  := by
  have hclaim : ∃ count g', claim t net g id = .ok (count, g') := by
    apply h.marked.exists_claim hfits.known h.listed
    rintro k (hk | ⟨rfl, -⟩)
    · cases hfree k hk
    · rfl
  obtain ⟨count, g', hclaim⟩ := hclaim
  cases hstanding : g₀.standing trace with
  | start => exact ⟨count, g', hclaim⟩
  | branch =>
    have hmem := hfits.rejoins hstanding
    have hid := hfits.known
    rw [← size_eq_of_view_eq h.marked.same] at hid
    obtain ⟨n, hn⟩ := exists_node_of_lt hid
    have hnet : n.net = some net := ((h.marked.nodes id n hn).net net).mpr (.inr ⟨rfl, hmem⟩)
    use 0, g
    rw [RoutingGraph.enter, hn, ok_bind, if_pos hnet]
    rfl
  | «from» driver =>
    obtain ⟨-, hmarked⟩ := h.marked.claim hclaim
    obtain ⟨hdriver, honly⟩ := hfits.driven driver hstanding
    have hselect : ∃ g'', selectDriver t net g' id driver = .ok g'' := by
      apply hmarked.exists_selectDriver hdriver
      rintro p (hp | hp)
      · obtain ⟨k, hk⟩ := h.entered p id hp
        cases hfree k hk
      · apply honly p hp
    obtain ⟨g'', hselect⟩ := hselect
    exact ⟨count, g'', bind_eq_ok_iff.mpr ⟨_, hclaim, bind_eq_ok_iff.mpr ⟨_, hselect, rfl⟩⟩⟩

/-! ### One trace -/

/-- Where the walk stands after a node is read off the node, whatever its annotation. -/
theorem standing_concat_eq {id : NodeId} {n : Node} (h : g.unannotated = g₀.unannotated)
    (hn : g.node id = .ok n) (trace : List NodeId) :
  g₀.standing (trace ++ [id]) = if n.kind = .sink then .branch else .from id
  := by
  obtain ⟨n₀, hn₀, hsame⟩ := exists_node_of_view_eq h hn
  have hkind : n.kind = n₀.kind := by
    simpa using congrArg Node.kind hsame
  rw [standing_concat]
  simp [IsSink, entry_eq_ok_iff.mp hn₀, hkind]

/-- The nodes that a walk counts are added to those with a net. -/
theorem claimed_of_walkTrace {standing : TraceState} {ids : List NodeId}
    (h : walkTrace t net g standing ids = .ok (count, g')) :
  g'.claimed = g.claimed + count
  := by
  induction ids generalizing standing g count with
  | nil =>
    cases pure_eq_ok_iff.mp h
    rfl
  | cons id ids ih =>
    rw [walkTrace] at h
    split at h
    · obtain ⟨⟨here, g''⟩, henter, h⟩ := bind_eq_ok_iff.mp h
      obtain ⟨n, -, h⟩ := bind_eq_ok_iff.mp h
      obtain ⟨⟨beyond, last⟩, hrest, h⟩ := bind_eq_ok_iff.mp h
      cases pure_eq_ok_iff.mp h
      rw [ih hrest, claimed_of_enter henter, Nat.add_assoc]
    · cases fail_ne_ok h

/-- After a walk the whole trace has been walked. -/
theorem Underway.walk {ids : List NodeId} (h : Underway t g₀ net holds leads trace g)
    (hok : walkTrace t net g (g₀.standing trace) ids = .ok (count, g')) :
  Underway t g₀ net holds leads (trace ++ ids) g'
  := by
  induction ids generalizing trace g count with
  | nil =>
    cases pure_eq_ok_iff.mp hok
    rw [List.append_nil]
    apply h
  | cons id ids ih =>
    rw [walkTrace] at hok
    split at hok
    · rename_i hid
      obtain ⟨⟨here, g''⟩, henter, hok⟩ := bind_eq_ok_iff.mp hok
      obtain ⟨n, hn, hok⟩ := bind_eq_ok_iff.mp hok
      obtain ⟨⟨beyond, g'''⟩, hrest, hok⟩ := bind_eq_ok_iff.mp hok
      cases pure_eq_ok_iff.mp hok
      rw [size_eq_of_view_eq h.marked.same] at hid
      have hentered := h.enter hid henter
      rw [← standing_concat_eq hentered.marked.same hn trace] at hrest
      have hwalked := ih hentered hrest
      rwa [List.append_assoc] at hwalked
    · cases fail_ne_ok hok

/-- A legal trace whose nodes are held by no earlier net can be walked to its end. -/
theorem Underway.exists_walk {ids : List NodeId} (h : Underway t g₀ net holds leads trace g)
    (hlegal : g₀.LegalTrace (trace ++ ids)) (hfree : ∀ k, ∀ q ∈ ids, ¬ holds k q) :
  ∃ count g', walkTrace t net g (g₀.standing trace) ids = .ok (count, g')
  := by
  induction ids generalizing trace g with
  | nil => exact ⟨0, g, rfl⟩
  | cons id ids ih =>
    have hfits : g₀.Fits trace id := by
      apply LegalTrace.fits
      apply hlegal.of_prefix
      use ids
      simp
    obtain ⟨here, g', henter⟩ := h.exists_enter hfits fun k => hfree k id List.mem_cons_self
    have hentered := h.enter hfits.known henter
    have hid : id < g.size := by
      rw [size_eq_of_view_eq h.marked.same]
      apply hfits.known
    have hid' : id < g'.size := by
      rw [size_eq_of_view_eq hentered.marked.same]
      apply hfits.known
    obtain ⟨n, hn⟩ := exists_node_of_lt hid'
    rw [List.append_cons] at hlegal
    obtain ⟨beyond, g'', hrest⟩ :=
      ih hentered hlegal fun k q hq => hfree k q (List.mem_cons_of_mem id hq)
    rw [standing_concat_eq hentered.marked.same hn trace] at hrest
    use here + beyond, g''
    rw [walkTrace, if_pos hid]
    exact bind_eq_ok_iff.mpr ⟨_, henter, bind_eq_ok_iff.mpr ⟨n, hn, bind_eq_ok_iff.mpr
      ⟨_, hrest, rfl⟩⟩⟩

end RoutingFabric.RoutingGraph
