import RoutingFabric.BlockGraph.Validity
import RoutingFabric.Cluster.Binding
import RoutingFabric.Proofs.Cluster.Selection
import RoutingFabric.Proofs.Cluster.Sorted
import RoutingFabric.Proofs.Cluster.Trail
import RoutingFabric.Proofs.Cluster.Work

/-!
# When a driver is missing

The selection misses a driver exactly when it passes a state in which the pin on top of the stack
is stuck: every source that carries its net has to take it from a pin on the stack. So a cluster
with a legal choice of drivers is refused only where a source of a pin has to take its net from
a pin that may in turn take its net from that pin. It is refused then even if the pin on the
stack has another edge, and will take that in the end.
-/

namespace RoutingFabric.Cluster

variable (b : BlockGraph) (g : RoutingGraph) (t : NetTable) (c : Cluster)

/-- The pin on top of the stack has a known net and edges, but all that bring the net come from
pins that have to take it from a pin on the stack. -/
structure Stuck (w : Walk) (f : Frame) (net : NetId) : Prop where
  top : ∃ below, w.stack = f :: below
  known : knownNet b g c f.pin = .ok (some net)
  driven : f.inputs ≠ []
  barren : ∀ i ∈ f.inputs, Barren b g c w (w.stack.map (·.pin)) net i

/-- A source of a pin that carries its net has to take it from a pin that may in turn take its net
from the first. -/
def Feedback : Prop :=
  ∃ id net source q, knownNet b g c id = .ok (some net) ∧ Wants b g c id source
    ∧ Carries b g c source (some net) ∧ Relation.ReflTransGen (Forced b g c) source q
    ∧ Relation.ReflTransGen (Wants b g c) q id

variable {b g t c}

/-! ### The problem of a stuck pin -/

/-- A stuck pin skips its next edge. -/
theorem Stuck.move_eq_skip {w : Walk} {f : Frame} {net : NetId} (h : Stuck b g c w f net)
    (hw : w.Inv b g c) {i : Input} (hnext : f.inputs[f.cursor]? = some i) :
  f.move b g t c w = .ok .skip
  := by
  have hbarren := h.barren i (List.mem_of_getElem? hnext)
  obtain ⟨first, rest, hinputs⟩ := List.exists_cons_of_ne_nil h.driven
  have hmove : f.move b g t c w = f.moveKnown b t c w net := by
    rw [Frame.move, h.known, hinputs]
    rfl
  rw [hmove, Frame.moveKnown, hnext]
  rcases hbarren.dealt.visiting_or_done with hvisiting | hdone
  · simp only [entry_eq_ok_iff.mpr hvisiting, ok_bind]
    rfl
  · have hsettled := hw.settled _ hdone
    obtain ⟨hlt, -⟩ := Array.getElem?_eq_some_iff.mp hdone
    rw [hw.visits, ← hw.nets] at hlt
    obtain ⟨found, hfound⟩ : ∃ found, w.resolved[i.source]? = some found := by
      use w.resolved[i.source]
      apply Array.getElem?_eq_getElem
    simp only [entry_eq_ok_iff.mpr hdone, entry_eq_ok_iff.mpr hfound, ok_bind]
    by_cases heq : found = some net
    · rw [heq] at hfound
      have hheld := hbarren.held (hsettled.carries hfound)
      obtain ⟨links, hlinks⟩ := (hw.held_iff hbarren.dealt).mp hheld
      have hlinks' := hlinks.lt_size
      rw [hw.visits, ← hw.states] at hlinks'
      rw [if_pos heq, hlinks.dependsOnPending (by omega)]
      rfl
    · rw [if_neg heq]
      rfl

/-- A stuck pin past its last edge is stopped. -/
theorem Stuck.move_eq_missing {w : Walk} {f : Frame} {net : NetId} (h : Stuck b g c w f net)
    (hcursor : f.inputs.length ≤ f.cursor) {name : String} (hname : b.pinName f.pin = .ok name) :
  f.move b g t c w
    = .error (.problem (.missingLocalDriver c.name name (t.nameOf net) f.inputs.length))
  := by
  obtain ⟨first, rest, hinputs⟩ := List.exists_cons_of_ne_nil h.driven
  have hmove : f.move b g t c w = f.moveKnown b t c w net := by
    rw [Frame.move, h.known, hinputs]
    rfl
  rw [hmove, Frame.moveKnown, List.getElem?_eq_none hcursor, hname]
  rfl

/-- A pin that is stuck stays so as it skips an edge. -/
theorem Stuck.skip {w : Walk} {f : Frame} {below : List Frame} {net : NetId}
    (h : Stuck b g c w f net) (hstack : w.stack = f :: below) :
  Stuck b g c { w with stack := { f with cursor := f.cursor + 1 } :: below }
    { f with cursor := f.cursor + 1 } net
  := by
  constructor
  case top => use below
  case known => apply h.known
  case driven => apply h.driven
  case barren =>
    intro i hi
    have hbarren := h.barren i hi
    rw [hstack] at hbarren
    constructor
    · apply hbarren.dealt
    · apply hbarren.held

/-- Where the walk passes a state in which a pin is stuck, the selection misses a driver. -/
theorem Passes.missing_of_stuck {next moves : Nat} {w : Walk} {f : Frame} {net : NetId}
    {name : String} (h : Passes b g t c next moves w) (hstuck : Stuck b g c w f net)
    (hname : b.pinName f.pin = .ok name) :
  selectWithin b g t c (moveBound b)
    = .error (.problem (.missingLocalDriver c.name name (t.nameOf net) f.inputs.length))
  := by
  -- the pin skips the edges it has left
  induction hn : f.inputs.length - f.cursor generalizing moves w f with
  | zero =>
    obtain ⟨below, hstack⟩ := hstuck.top
    have hpos := h.moves_pos (by simp [hstack])
    obtain ⟨moves, rfl⟩ := Nat.exists_eq_succ_of_ne_zero hpos.ne'
    rw [selectWithin_of_passes h, resume_of_cons hstack, hstuck.move_eq_missing (by omega) hname,
      error_bind]
  | succ n ih =>
    obtain ⟨below, hstack⟩ := hstuck.top
    have hpos := h.moves_pos (by simp [hstack])
    obtain ⟨moves, rfl⟩ := Nat.exists_eq_succ_of_ne_zero hpos.ne'
    have hlt : f.cursor < f.inputs.length := by omega
    have hnext := List.getElem?_eq_getElem hlt
    have h' := Passes.move h hstack (hstuck.move_eq_skip h.inv hnext) rfl
    apply ih h' (hstuck.skip hstack) hname
    change f.inputs.length - (f.cursor + 1) = n
    omega

/-- A pin that has passed all its edges is stuck. -/
theorem Passes.stuck_of_passed {next moves : Nat} {w : Walk} {f : Frame} {below : List Frame}
    {net : NetId} (h : Passes b g t c next moves w) (hstack : w.stack = f :: below)
    (hknown : knownNet b g c f.pin = .ok (some net)) (hdriven : f.inputs ≠ [])
    (hcursor : f.inputs.length ≤ f.cursor) :
  Stuck b g c w f net
  := by
  constructor
  case top => use below
  case known => apply hknown
  case driven => apply hdriven
  case barren =>
    intro i hi
    have hpassed := h.passed
    rw [hstack] at hpassed ⊢
    apply hpassed.1 net hknown
    rw [List.take_of_length_le hcursor]
    apply hi

/-! ### The problem of a selection -/

/-- The selection misses a driver exactly when its walk does. -/
theorem outcome_eq_missing_iff {cluster pin net : String} {edges : Nat} :
  ((selectLocalDrivers b g t).run c).outcome
      = .error (.problem (.missingLocalDriver cluster pin net edges))
    ↔ selectWithin b g t c (moveBound b)
      = .error (.problem (.missingLocalDriver cluster pin net edges))
  := by
  rw [outcome_selectLocalDrivers, bind_eq_error_iff]
  constructor
  · rintro (h | ⟨pins, -, h⟩)
    · apply h
    · rcases bind_eq_error_iff.mp h with h | ⟨order, -, h⟩
      · obtain ⟨_, name, -, -, hp⟩ := cycle_of_propagationOrder h
        cases hp
      · cases h
  · intro h
    left
    apply h

/-- A legal choice is refused only where there is feedback. -/
theorem Legal.feedback_of_stuck {choice : PinId → Nat} (h : Legal b g c choice)
    {next moves : Nat} {w : Walk} {f : Frame} {net : NetId} (hw : Passes b g t c next moves w)
    (hstuck : Stuck b g c w f net) :
  Feedback b g c
  := by
  obtain ⟨below, hstack⟩ := hstuck.top
  have hwired := hw.inv.wired f (by simp [hstack])
  obtain ⟨i, hi, hcarries⟩ := h.exists_source hwired hstuck.driven hstuck.known
  obtain ⟨q, hq, hforced⟩ := (hstuck.barren i hi).held hcarries
  use f.pin, net, i.source, q, hstuck.known, Wants.any hstuck.known hwired hi, hcarries, hforced
  apply hw.wants_top hstack hq

/-- The selection misses a driver exactly when its walk passes a state in which a pin is stuck,
and refuses a legal choice only where there is feedback. -/
theorem missing_iff_stuck (b : BlockGraph) (g : RoutingGraph) (t : NetTable) (c : Cluster) :
  (∀ cluster pin net edges, ((selectLocalDrivers b g t).run c).outcome
      = .error (.problem (.missingLocalDriver cluster pin net edges))
    ↔ ∃ next moves w f id, Passes b g t c next moves w ∧ Stuck b g c w f id
      ∧ cluster = c.name ∧ b.pinName f.pin = .ok pin ∧ net = t.nameOf id
      ∧ edges = f.inputs.length)
    ∧ ∀ choice, Legal b g c choice → ¬ Feedback b g c → ∀ cluster pin net edges,
      ((selectLocalDrivers b g t).run c).outcome
        ≠ .error (.problem (.missingLocalDriver cluster pin net edges))
  := by
  have hiff : ∀ cluster pin net edges, ((selectLocalDrivers b g t).run c).outcome
        = .error (.problem (.missingLocalDriver cluster pin net edges))
      ↔ ∃ next moves w f id, Passes b g t c next moves w ∧ Stuck b g c w f id
        ∧ cluster = c.name ∧ b.pinName f.pin = .ok pin ∧ net = t.nameOf id
        ∧ edges = f.inputs.length := by
    intro cluster pin net edges
    rw [outcome_eq_missing_iff]
    constructor
    · intro h
      obtain ⟨next, moves, w, f, below, hw, hstack, hmove⟩ := exists_passes_of_problem h
      rcases Frame.problem_of_move hmove with
        ⟨id, name, hknown, hdriven, hcursor, hname, hp⟩ | ⟨name, hp⟩
      · cases hp
        use next, moves, w, f, id, hw, hw.stuck_of_passed hstack hknown hdriven hcursor
      · cases hp
    · rintro ⟨next, moves, w, f, id, hw, hstuck, rfl, hname, rfl, rfl⟩
      apply hw.missing_of_stuck hstuck hname
  use hiff
  intro choice hlegal hfeedback cluster pin net edges h
  obtain ⟨next, moves, w, f, id, hw, hstuck, -⟩ := (hiff cluster pin net edges).mp h
  apply hfeedback
  apply hlegal.feedback_of_stuck hw hstuck

/-! ### A legal choice that is refused -/

/-- A table in a logic element, whose output is fed back to the input of the element by a
crossbar, next to an input of the cluster. -/
def feedbackBlock : BlockGraph where
  name := "clb"
  blocks := #[
    { name := "clb", type := "clb", modes := [⟨"default", [1], [0]⟩], pins := [4] },
    { name := "ble[0]", type := "ble", parent := some (0, 0), depth := 1,
      modes := [⟨"default", [2], [1, 2]⟩], pins := [2, 3] },
    { name := "lut[0]", type := "lut", parent := some (1, 0), depth := 2, pins := [0, 1] }]
  pins := #[
    { block := 2, port := "in", bit := 0, kind := .input, inputs := [2] },
    { block := 2, port := "out", bit := 0, kind := .output, outputs := [3] },
    { block := 1, port := "in", bit := 0, kind := .input, inputs := [0, 1], outputs := [2] },
    { block := 1, port := "out", bit := 0, kind := .output, inputs := [3], outputs := [0] },
    { block := 0, port := "I", bit := 0, kind := .input, boundary := some 0, outputs := [1] }]
  edges := #[⟨3, 2, 0⟩, ⟨4, 2, 0⟩, ⟨2, 0, 1⟩, ⟨1, 3, 2⟩]
  interconnects := #[
    { name := "crossbar", kind := .fullMux, owner := 0, mode := 0, edges := [0, 1] },
    { name := "in", kind := .wire, owner := 1, mode := 0, edges := [2] },
    { name := "out", kind := .wire, owner := 1, mode := 0, edges := [3] }]

/-- The input pin of the cluster. -/
def feedbackGraph : RoutingGraph where
  nodes := #[{ kind := .inPin, low := ⟨0, 0⟩, high := ⟨0, 0⟩, ptc := 0, side := some .top }]
  lookup := [0]

/-- The net that enters the cluster, and the one that the table forwards it to. -/
def feedbackNets : NetTable where
  nets := #[{ name := "x", logical := 0 }, { name := "y", logical := 1 }]
  logicals := #[⟨"x"⟩, ⟨"y"⟩]

/-- The table forwards the net of the cluster input to the output of the element. -/
def feedbackCluster : Cluster where
  name := "c0"
  blockGraph := 0
  place := ⟨0, 0⟩
  modes := #[some 0, some 0, none]
  pinNets := #[some 0, some 1, some 0, some 1, some 0]
  routeThroughs := [(1, 0)]
  locals := { Local.blank 5 with bindings := [(4, 0)] }

/-- The input of the element takes its second edge, and all other pins take their first. -/
def feedbackChoice (id : PinId) : Nat := if id = 2 then 1 else 0

/-- The edges of the pins of the element. -/
def feedbackInputs : PinId → List Input
  | 0 => [⟨2, 2⟩]
  | 2 => [⟨0, 3⟩, ⟨1, 4⟩]
  | 3 => [⟨3, 1⟩]
  | _ => []

/-- How many pins come before a pin on the way from the input of the cluster. -/
def feedbackRank : PinId → Nat
  | 0 => 2
  | 1 => 3
  | 2 => 1
  | 3 => 4
  | _ => 0

/-- The choice for the element is legal. -/
theorem feedbackChoice_legal : Legal feedbackBlock feedbackGraph feedbackCluster feedbackChoice := by
  have hinputs : ∀ {id inputs}, inputsOf feedbackBlock feedbackCluster id = .ok inputs →
      id < 5 ∧ inputs = feedbackInputs id := by
    intro id inputs h
    obtain ⟨edges, hedges, -⟩ := bind_eq_ok_iff.mp h
    obtain ⟨p, hp, -⟩ := bind_eq_ok_iff.mp hedges
    obtain ⟨hid, -⟩ := Array.getElem?_eq_some_iff.mp (entry_eq_ok_iff.mp hp)
    have hall : ∀ id < 5,
        inputsOf feedbackBlock feedbackCluster id = .ok (feedbackInputs id) := by
      decide
    use hid
    rw [hall id hid] at h
    cases h
    rfl
  have hfollows : ∀ id q, Follows feedbackBlock feedbackCluster feedbackChoice id q →
      feedbackRank q < feedbackRank id := by
    rintro id q (⟨inputs, i, hwired, hi, rfl⟩ | ⟨hwired, hforwards⟩)
    · obtain ⟨hid, rfl⟩ := hinputs hwired
      have hall : ∀ id < 5, ∀ i ∈ (feedbackInputs id)[feedbackChoice id]?,
          feedbackRank i.source < feedbackRank id := by
        decide
      apply hall id hid i hi
    · obtain ⟨hid, -⟩ := hinputs hwired
      have hall : ∀ id < 5, forwarded feedbackBlock feedbackCluster id
          = .ok (if id = 1 then some 0 else none) := by
        decide
      rw [hall id hid] at hforwards
      split at hforwards
      · rename_i hid'
        cases hforwards
        rw [hid']
        decide
      · cases hforwards
  constructor
  case inRange =>
    intro id inputs hwired hne
    obtain ⟨hid, rfl⟩ := hinputs hwired
    have hall : ∀ id < 5, feedbackInputs id ≠ [] →
        feedbackChoice id < (feedbackInputs id).length := by
      decide
    apply hall id hid hne
  case free =>
    intro id inputs hwired hne hfree
    obtain ⟨hid, rfl⟩ := hinputs hwired
    have hall : ∀ id < 5, feedbackInputs id ≠ [] →
        knownNet feedbackBlock feedbackGraph feedbackCluster id ≠ .ok none := by
      decide
    cases hall id hid hne hfree
  case fed =>
    intro id inputs i net hwired hi hknown
    obtain ⟨hid, rfl⟩ := hinputs hwired
    have hall : ∀ id < 5, ∀ i ∈ (feedbackInputs id)[feedbackChoice id]?,
        knownNet feedbackBlock feedbackGraph feedbackCluster i.source
          = knownNet feedbackBlock feedbackGraph feedbackCluster id := by
      decide
    apply Meets.here
    rw [hall id hid i hi, hknown]
  case acyclic => apply not_transGen_of_rank hfollows

/-- The selection refuses the element, although a legal choice exists for it. -/
theorem legal_choice_refused :
  feedbackBlock.validate = .ok ()
    ∧ (prepare feedbackBlock feedbackGraph 2).Gives feedbackCluster () feedbackCluster
    ∧ (∃ choice, Legal feedbackBlock feedbackGraph feedbackCluster choice)
    ∧ ((selectLocalDrivers feedbackBlock feedbackGraph feedbackNets).run feedbackCluster).outcome
      = .error (.problem (.missingLocalDriver "c0" "clb.ble[0].out[0]" "y" 1))
  := ⟨by decide, by constructor <;> decide, ⟨feedbackChoice, feedbackChoice_legal⟩, by decide⟩

end RoutingFabric.Cluster
