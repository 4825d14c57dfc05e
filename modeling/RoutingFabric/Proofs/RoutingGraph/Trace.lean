import Mathlib.Data.List.Infix
import RoutingFabric.Proofs.Outcome
import RoutingFabric.RoutingGraph.Tracing

/-!
# Legal traces

A trace leads from each node that is no sink on to the next one. It is legal when every node
that it leads to has the node before as a driver, when no node is led to from two others, and
when it goes on after a sink from a node that it holds already. None of this depends on the
order in which the trace is walked, yet it can be checked node by node: a trace stays legal
exactly when each node added to it fits.
-/

namespace RoutingFabric.RoutingGraph

variable (g : RoutingGraph)

/-- The node is a sink. -/
def IsSink (id : NodeId) : Prop := (g.nodes[id]?).map (·.kind) = some .sink

instance (id : NodeId) : Decidable (g.IsSink id) :=
  inferInstanceAs (Decidable ((g.nodes[id]?).map (·.kind) = some .sink))

/-- The node lists the other one among its drivers. -/
def HasDriver (id driver : NodeId) : Prop :=
  ∃ n, g.node id = .ok n ∧ ∃ d ∈ n.drivers, d.node = driver

/-- The trace leads from a node that is no sink on to the other one. -/
def Leads (trace : List NodeId) (p q : NodeId) : Prop := [p, q] <:+: trace ∧ ¬ g.IsSink p

/-- The trace can be walked. -/
structure LegalTrace (trace : List NodeId) : Prop where
  /-- its nodes exist -/
  known : ∀ id ∈ trace, id < g.size
  /-- a node that the trace leads to is driven by the one before -/
  driven : ∀ p q, g.Leads trace p q → g.HasDriver q p
  /-- after a sink the trace goes on from a node that occurs earlier -/
  rejoins : ∀ before p q, before ++ [p, q] <+: trace → g.IsSink p → q ∈ before ++ [p]
  /-- a node is led to from one other at most -/
  single : ∀ p p' q, g.Leads trace p q → g.Leads trace p' q → p = p'

/-- Where the walk stands after a part of the trace. -/
def standing (trace : List NodeId) : TraceState :=
  match trace.getLast? with
  | none => .start
  | some p => if g.IsSink p then .branch else .from p

/-- The node may come after a part of the trace. -/
structure Fits (trace : List NodeId) (id : NodeId) : Prop where
  known : id < g.size
  driven : ∀ p, g.standing trace = .from p → g.HasDriver id p ∧ ∀ p', g.Leads trace p' id → p' = p
  rejoins : g.standing trace = .branch → id ∈ trace

variable {g}

/-! ### Where a walk stands -/

/-- After a sink the walk stands at a branch, after any other node on that node. -/
theorem standing_concat (trace : List NodeId) (id : NodeId) :
  g.standing (trace ++ [id]) = if g.IsSink id then .branch else .from id
  := by
  simp [standing]

/-- The walk stands at the start exactly if no node has been walked. -/
theorem standing_eq_start_iff {trace : List NodeId} : g.standing trace = .start ↔ trace = [] := by
  rw [standing]
  split
  · simp_all
  · rename_i p hlast
    have hne : trace ≠ [] := List.ne_nil_of_mem (List.mem_of_getLast? hlast)
    split <;> simp [hne]

/-- The walk stands on a node exactly if that is the last one and no sink. -/
theorem standing_eq_from_iff {trace : List NodeId} {p : NodeId} :
  g.standing trace = .from p ↔ trace.getLast? = some p ∧ ¬ g.IsSink p
  := by
  rw [standing]
  split
  · simp_all
  · rename_i q hq
    rw [hq]
    split
    · rename_i hsink
      constructor
      · intro h
        cases h
      · rintro ⟨⟨⟩, hp⟩
        contradiction
    · rename_i hsink
      constructor
      · rintro ⟨⟩
        exact ⟨rfl, hsink⟩
      · rintro ⟨⟨⟩, -⟩
        rfl

/-- The walk stands at a branch exactly if the last node is a sink. -/
theorem standing_eq_branch_iff {trace : List NodeId} :
  g.standing trace = .branch ↔ ∃ p, trace.getLast? = some p ∧ g.IsSink p
  := by
  rw [standing]
  split <;> simp_all

/-! ### Adding a node -/

/-- Two nodes come after one another in a longer trace if they did before, or are its last. -/
theorem pair_infix_concat_iff {trace : List NodeId} {p q id : NodeId} :
  [p, q] <:+: trace ++ [id] ↔ [p, q] <:+: trace ∨ q = id ∧ trace.getLast? = some p
  := by
  rw [List.infix_concat_iff, List.suffix_concat_iff, or_comm]
  apply or_congr_right
  rw [List.getLast?_eq_some_iff]
  constructor
  · rintro (h | ⟨t, ht, before, rfl⟩)
    · cases h
    · obtain ⟨rfl, rfl⟩ : t = [p] ∧ q = id := by
        have hsplit : [p] ++ [q] = t ++ [id] := ht
        have := List.append_inj' hsplit rfl
        simp_all
      exact ⟨rfl, before, rfl⟩
  · rintro ⟨rfl, before, rfl⟩
    right
    exact ⟨[p], rfl, List.suffix_append before [p]⟩

/-- A longer trace leads on as before, and to the added node from where the walk stands. -/
theorem leads_concat_iff {trace : List NodeId} {p q id : NodeId} :
  g.Leads (trace ++ [id]) p q ↔ g.Leads trace p q ∨ q = id ∧ g.standing trace = .from p
  := by
  rw [Leads, Leads, pair_infix_concat_iff, standing_eq_from_iff, or_and_right, and_assoc]

/-- The trace leads to nodes that it holds. -/
theorem Leads.mem {trace : List NodeId} {p q : NodeId} (h : g.Leads trace p q) : q ∈ trace := by
  apply h.1.subset
  simp

/-- Nothing at all is a legal trace. -/
theorem legalTrace_nil : g.LegalTrace [] := by
  constructor
  case known => simp
  case driven =>
    intro p q h
    cases h.mem
  case rejoins =>
    intro before p q h
    simp at h
  case single =>
    intro p p' q h
    cases h.mem

/-- A part of a legal trace is legal. -/
theorem LegalTrace.of_prefix {part trace : List NodeId} (h : g.LegalTrace trace)
    (hpart : part <+: trace) :
  g.LegalTrace part
  := by
  have hleads : ∀ p q, g.Leads part p q → g.Leads trace p q := by
    rintro p q ⟨hpair, hp⟩
    exact ⟨hpair.trans hpart.isInfix, hp⟩
  constructor
  case known =>
    intro id hid
    apply h.known id (hpart.subset hid)
  case driven =>
    intro p q hpq
    apply h.driven p q (hleads p q hpq)
  case rejoins =>
    intro before p q hbefore
    apply h.rejoins before p q (hbefore.trans hpart)
  case single =>
    intro p p' q hp hp'
    apply h.single p p' q (hleads p q hp) (hleads p' q hp')

/-- A node that stands at the end of a legal trace fits after the others. -/
theorem LegalTrace.fits {trace : List NodeId} {id : NodeId} (h : g.LegalTrace (trace ++ [id])) :
  g.Fits trace id
  := by
  constructor
  case known =>
    apply h.known
    simp
  case driven =>
    intro p hp
    have hled : g.Leads (trace ++ [id]) p id := leads_concat_iff.mpr (.inr ⟨rfl, hp⟩)
    constructor
    · apply h.driven p id hled
    · intro p' hp'
      apply h.single p' p id (leads_concat_iff.mpr (.inl hp')) hled
  case rejoins =>
    intro hbranch
    obtain ⟨p, hlast, hsink⟩ := standing_eq_branch_iff.mp hbranch
    obtain ⟨before, rfl⟩ := List.getLast?_eq_some_iff.mp hlast
    apply h.rejoins before p id _ hsink
    simp

/-- A legal trace stays legal with a node that fits. -/
theorem LegalTrace.concat {trace : List NodeId} {id : NodeId} (h : g.LegalTrace trace)
    (hid : g.Fits trace id) :
  g.LegalTrace (trace ++ [id])
  := by
  constructor
  case known =>
    intro q hq
    rcases List.mem_append.mp hq with hq | hq
    · apply h.known q hq
    · rw [List.mem_singleton.mp hq]
      apply hid.known
  case driven =>
    intro p q hpq
    rcases leads_concat_iff.mp hpq with hpq | ⟨rfl, hp⟩
    · apply h.driven p q hpq
    · apply (hid.driven p hp).1
  case rejoins =>
    intro before p q hprefix hsink
    rcases List.prefix_concat_iff.mp hprefix with heq | hprefix
    · obtain ⟨rfl, rfl⟩ : before ++ [p] = trace ∧ q = id := by
        rw [List.append_cons] at heq
        have := List.append_inj' heq rfl
        simp_all
      apply hid.rejoins
      rw [standing_concat, if_pos hsink]
    · apply h.rejoins before p q hprefix hsink
  case single =>
    intro p p' q hp hp'
    rcases leads_concat_iff.mp hp with hled | ⟨rfl, hstands⟩
    · rcases leads_concat_iff.mp hp' with hled' | ⟨rfl, hstands'⟩
      · apply h.single p p' q hled hled'
      · apply (hid.driven p' hstands').2 p hled
    · rcases leads_concat_iff.mp hp' with hled' | ⟨-, hstands'⟩
      · symm
        apply (hid.driven p hstands).2 p' hled'
      · rw [hstands] at hstands'
        cases hstands'
        rfl

end RoutingFabric.RoutingGraph
