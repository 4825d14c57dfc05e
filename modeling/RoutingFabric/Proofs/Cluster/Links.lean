import Mathlib.Logic.Relation
import RoutingFabric.Cluster.Wiring
import RoutingFabric.Proofs.Outcome

/-!
# Links between the pins of a cluster

Which net a pin carries is determined before any driver is selected: a pin with a known net
carries that, and a pin without one carries what its first edge brings. A choice of drivers is
legal when every pin with a known net is fed with it and no pin feeds itself.
-/

namespace RoutingFabric.Cluster

variable (b : BlockGraph) (g : RoutingGraph) (c : Cluster)

/-! ### Nets that pins carry -/

/-- The net a pin carries, if any. -/
inductive Carries : PinId → Option NetId → Prop
  /-- it is known to carry it -/
  | known {id : PinId} {net : NetId} (known : knownNet b g c id = .ok (some net)) :
    Carries id (some net)
  /-- nothing drives it -/
  | idle {id : PinId} (known : knownNet b g c id = .ok none) (wired : inputsOf b c id = .ok []) :
    Carries id none
  /-- its first edge brings it -/
  | first {id : PinId} {i : Input} {rest : List Input} {net : Option NetId}
    (known : knownNet b g c id = .ok none) (wired : inputsOf b c id = .ok (i :: rest))
    (source : Carries i.source net) :
    Carries id net

/-- The pin has to take its net from the other one: it takes its first edge, or forwards. -/
inductive Forced : PinId → PinId → Prop
  /-- a pin without a known net takes its first edge -/
  | first {id : PinId} {i : Input} {rest : List Input}
    (known : knownNet b g c id = .ok none) (wired : inputsOf b c id = .ok (i :: rest)) :
    Forced id i.source
  /-- a pin that nothing drives forwards an input -/
  | forward {id input : PinId}
    (wired : inputsOf b c id = .ok []) (forwards : forwarded b c id = .ok (some input)) :
    Forced id input

/-- The pin may take its net from the other one. -/
inductive Wants : PinId → PinId → Prop
  /-- a pin with a known net may take any of its edges -/
  | any {id : PinId} {net : NetId} {inputs : List Input} {i : Input}
    (known : knownNet b g c id = .ok (some net)) (wired : inputsOf b c id = .ok inputs)
    (mem : i ∈ inputs) :
    Wants id i.source
  /-- other pins have to take theirs -/
  | forced {id q : PinId} (forced : Forced b g c id q) : Wants id q

/-- The pin is known to carry a net, and has edges to choose the one from that brings it. -/
def Chooses (id : PinId) : Prop :=
  ∃ net inputs, knownNet b g c id = .ok (some net) ∧ inputsOf b c id = .ok inputs ∧ inputs ≠ []

/-- The pin copies its net from the other one, once drivers are selected. -/
def Copies (pins : Array PinState) (id q : PinId) : Prop := dependency b c pins id = .ok (some q)

variable {b g c}

/-- A pin whose edges are known is one of the block graph. -/
theorem lt_size_of_inputsOf {id : PinId} {inputs : List Input}
    (h : inputsOf b c id = .ok inputs) :
  id < b.pins.size
  := by
  obtain ⟨edges, hedges, -⟩ := bind_eq_ok_iff.mp h
  obtain ⟨p, hp, -⟩ := bind_eq_ok_iff.mp hedges
  obtain ⟨hid, -⟩ := Array.getElem?_eq_some_iff.mp (entry_eq_ok_iff.mp hp)
  apply hid

/-- A pin carries one net at most. -/
theorem Carries.unique {id : PinId} {net net' : Option NetId}
    (h : Carries b g c id net) (h' : Carries b g c id net') :
  net = net'
  := by
  induction h generalizing net' with
  | known known => cases h' <;> simp_all
  | idle known wired => cases h' <;> simp_all
  | first known wired source ih =>
    cases h' with
    | known known' => simp_all
    | idle known' wired' => simp_all
    | first known' wired' source' =>
      rw [wired] at wired'
      cases wired'
      apply ih source'

/-- The net that a pin is known to carry is the one it carries. -/
theorem Carries.eq_of_known {id : PinId} {known net : Option NetId}
    (h : Carries b g c id net) (hknown : knownNet b g c id = .ok known) :
  known = none ∨ known = net
  := by
  cases h <;> simp_all

/-- A pin that no edge may drive is known to carry the net it carries. -/
theorem Carries.known_of_idle {id : PinId} {net : NetId} (h : Carries b g c id (some net))
    (hwired : inputsOf b c id = .ok []) :
  knownNet b g c id = .ok (some net)
  := by
  cases h with
  | known known => exact known
  | first known wired =>
    rw [hwired] at wired
    cases wired

/-- A pin that has to take its net from another is one of the block graph. -/
theorem Forced.lt_size {id q : PinId} (h : Forced b g c id q) : id < b.pins.size := by
  cases h with
  | first _ wired => apply lt_size_of_inputsOf wired
  | forward wired => apply lt_size_of_inputsOf wired

/-- Where a pin may take its net from another in the end, it has to, or a pin that has a choice is
on the way. -/
theorem forced_or_chooses {id q : PinId} (h : Relation.ReflTransGen (Wants b g c) id q) :
  Relation.ReflTransGen (Forced b g c) id q
    ∨ ∃ k, Chooses b g c k ∧ Relation.ReflTransGen (Forced b g c) id k
      ∧ Relation.TransGen (Wants b g c) k q
  := by
  induction h using Relation.ReflTransGen.head_induction_on with
  | refl =>
    left
    apply Relation.ReflTransGen.refl
  | @head id next hnext hrest ih =>
    cases hnext with
    | @any net inputs i known wired mem =>
      right
      use id, ⟨net, inputs, known, wired, List.ne_nil_of_mem mem⟩, Relation.ReflTransGen.refl
      apply Relation.TransGen.head' (Wants.any known wired mem) hrest
    | forced forced =>
      rcases ih with hforced | ⟨k, hk, hforced, hback⟩
      · left
        apply Relation.ReflTransGen.head forced hforced
      · right
        use k, hk, Relation.ReflTransGen.head forced hforced

/-! ### Choices of drivers -/

section

variable (b g c)
variable (choice : PinId → Nat)

/-- The pin takes its net from the other one, with the edge that was chosen for it. -/
def Chosen (id q : PinId) : Prop :=
  ∃ inputs i, inputsOf b c id = .ok inputs ∧ inputs[choice id]? = some i ∧ i.source = q

/-- The first pin with a known net that is met along the chosen drivers has the net. -/
inductive Meets (net : NetId) : PinId → Prop
  /-- the pin itself has -/
  | here {id : PinId} (known : knownNet b g c id = .ok (some net)) : Meets net id
  /-- the pin has none, and it is met from its driver on -/
  | beyond {id q : PinId} (known : knownNet b g c id = .ok none)
    (chosen : Chosen b c choice id q) (rest : Meets net q) : Meets net id

/-- The pin takes its net from the other one, with the edge that was chosen for it or by
forwarding it. -/
def Follows (id q : PinId) : Prop :=
  Chosen b c choice id q ∨ inputsOf b c id = .ok [] ∧ forwarded b c id = .ok (some q)

/-- The choice of an edge for every pin that has edges is one the cluster can be configured
with. -/
structure Legal : Prop where
  /-- the edges that are chosen exist -/
  inRange : ∀ id inputs, inputsOf b c id = .ok inputs → inputs ≠ [] → choice id < inputs.length
  /-- a pin without a known net takes its first edge -/
  free : ∀ id inputs, inputsOf b c id = .ok inputs → inputs ≠ [] →
    knownNet b g c id = .ok none → choice id = 0
  /-- a pin with a known net is fed with it -/
  fed : ∀ id inputs i net, inputsOf b c id = .ok inputs → inputs[choice id]? = some i →
    knownNet b g c id = .ok (some net) → Meets b g c choice net i.source
  /-- no pin takes its net from itself -/
  acyclic : ∀ id, ¬ Relation.TransGen (Follows b c choice) id id

end

/-- Along a legal choice the net that is met first is the one the pin carries. -/
theorem Legal.carries {choice : PinId → Nat} (h : Legal b g c choice) {net : NetId}
    {id : PinId} (hmeets : Meets b g c choice net id) :
  Carries b g c id (some net)
  := by
  induction hmeets with
  | here known => apply Carries.known known
  | @beyond id q known chosen rest ih =>
    obtain ⟨inputs, i, hinputs, hi, rfl⟩ := chosen
    have hne : inputs ≠ [] := by
      rintro rfl
      simp at hi
    rw [h.free id inputs hinputs hne known] at hi
    cases inputs with
    | nil => contradiction
    | cons first rest =>
      obtain rfl : first = i := by simpa using hi
      apply Carries.first known hinputs ih

/-- A legal choice has an edge for every pin with a known net whose source carries the net. -/
theorem Legal.exists_source {choice : PinId → Nat} (h : Legal b g c choice) {net : NetId}
    {id : PinId} {inputs : List Input} (hinputs : inputsOf b c id = .ok inputs)
    (hne : inputs ≠ []) (hknown : knownNet b g c id = .ok (some net)) :
  ∃ i ∈ inputs, Carries b g c i.source (some net)
  := by
  have hlt := h.inRange id inputs hinputs hne
  use inputs[choice id]
  constructor
  · apply List.getElem_mem
  · apply h.carries
    apply h.fed id inputs _ net hinputs _ hknown
    apply List.getElem?_eq_getElem

/-- A relation along which a rank falls has no cycle. -/
theorem not_transGen_of_rank {α : Type} {r : α → α → Prop} {rank : α → Nat}
    (h : ∀ x y, r x y → rank y < rank x) (x : α) :
  ¬ Relation.TransGen r x x
  := by
  have hlt : ∀ y, Relation.TransGen r x y → rank y < rank x := by
    intro y hy
    induction hy with
    | single hy => apply h _ _ hy
    | tail _ hy ih => apply Nat.lt_trans (h _ _ hy) ih
  intro hcycle
  apply Nat.lt_irrefl _ (hlt x hcycle)

end RoutingFabric.Cluster
