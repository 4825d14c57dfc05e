import RoutingFabric.Cluster.Propagation
import RoutingFabric.Proofs.Cluster.Sorted
import RoutingFabric.Proofs.RoutingGraph.Views

/-!
# Propagation makes a cluster steady

In a steady cluster each pin has the nets that it would take. Propagating nets in the order of
propagation makes a cluster steady, since each pin takes its nets after the pin that it copies
from, and leaves a steady cluster as it is. Between two steady clusters with the same drivers a
pin differs only if the pin at the end of its chain does, which then is an input of the cluster
whose node differs.
-/

namespace RoutingFabric.Cluster

open Relation

/-- The state of a pin without its nets. -/
def PinState.silent (s : PinState) : PinState :=
  { s with net := none, logical := none, changed := false }

/-- The cluster without the nets of its pins. -/
def silent (c : Cluster) : Cluster :=
  { c with locals := { c.locals with pins := c.locals.pins.map PinState.silent } }

/-- The logical net of a pin. -/
def logicalAt (c : Cluster) (id : PinId) : Option LogicalId :=
  (c.locals.pins[id]?).bind (·.logical)

/-- The net of a pin. -/
def netAt (c : Cluster) (id : PinId) : Option NetId := (c.locals.pins[id]?).bind (·.net)

/-- Whether the last propagation changed a pin. -/
def isChanged (c : Cluster) (id : PinId) : Bool := (c.locals.pins[id]?).any (·.changed)

variable (b : BlockGraph) (g : RoutingGraph) (t : NetTable)

/-- Each pin has the nets that it would take. -/
def Steady (c : Cluster) : Prop :=
  ∀ id s, c.locals.pins[id]? = some s → incoming b g t c id = .ok (s.net, s.logical)

variable {b g t} {g' : RoutingGraph} {c c' : Cluster} {id q : PinId} {ids : List PinId} {count : Nat}

/-- The logical net of a pin that is found. -/
theorem logicalAt_of_pin {s : PinState} (hs : c.locals.pin id = .ok s) :
  c.logicalAt id = s.logical
  := by
  rw [logicalAt, entry_eq_ok_iff.mp hs, Option.bind_some]

/-! ### Clusters that differ in nets -/

/-- What does not depend on nets is the same in clusters that differ in nets only. -/
theorem congr_of_silent_eq {α : Type} (f : Cluster → α) (hf : ∀ c, f c.silent = f c)
    (h : c.silent = c'.silent) :
  f c = f c'
  := by
  rw [← hf, h, hf]

/-- The pins of two clusters that differ in nets only have the same states without nets. -/
theorem exists_pin_of_silent_eq (h : c.silent = c'.silent) {s : PinState}
    (hs : c.locals.pins[id]? = some s) :
  ∃ s', c'.locals.pins[id]? = some s' ∧ s.silent = s'.silent
  := by
  have hpins : c.locals.pins.map PinState.silent = c'.locals.pins.map PinState.silent :=
    congrArg (fun c : Cluster => c.locals.pins) h
  apply exists_getElem?_of_map_eq hpins hs

/-- Clusters that differ in nets only have as many pins. -/
theorem size_eq_of_silent_eq (h : c.silent = c'.silent) :
  c.locals.pins.size = c'.locals.pins.size
  := by
  apply congr_of_silent_eq (fun c => c.locals.pins.size) _ h
  intro c
  apply Array.size_map

/-- A cluster with other states of pins differs in nets if the states do. -/
theorem silent_with_pins {pins : Array PinState}
    (h : pins.map PinState.silent = c.locals.pins.map PinState.silent) :
  ({ c with locals := { c.locals with pins } } : Cluster).silent = c.silent
  := by
  simp only [silent, h]

/-- The pin that a pin copies from does not depend on nets. -/
theorem dependency_silent :
  dependency b c.silent c.silent.locals.pins id = dependency b c c.locals.pins id
  := by
  rw [dependency, dependency, entry, entry]
  simp only [silent, Array.getElem?_map]
  cases c.locals.pins[id]? <;> rfl

/-- Clusters that differ in nets only copy from the same pins. -/
theorem dependency_congr (h : c.silent = c'.silent) :
  dependency b c c.locals.pins id = dependency b c' c'.locals.pins id
  := congr_of_silent_eq (fun c => dependency b c c.locals.pins id) (fun _ => dependency_silent) h

/-- Clusters that differ in nets only copy from the same pins. -/
theorem copies_congr (h : c.silent = c'.silent) :
  Copies b c c.locals.pins = Copies b c' c'.locals.pins
  := by
  funext p q
  rw [Copies, Copies, dependency_congr h]

/-- Sorted lists do not depend on nets. -/
theorem InOrder.of_silent_eq {done : Set PinId} (horder : InOrder b c c.locals.pins done ids)
    (h : c.silent = c'.silent) :
  InOrder b c' c'.locals.pins done ids
  := by
  apply horder.congr
  intro id
  apply dependency_congr h

/-! ### The nets that a pin takes -/

/-- The net that a pin takes which copies from another one. -/
def copiedNet (c : Cluster) (id : PinId) (net : Option NetId) : Option NetId :=
  if ((c.locals.pins[id]?).bind (·.selected)).isSome then c.pinNet id <|> net else c.pinNet id

variable (b g t) in
/-- The nets that a pin takes which copies from none. -/
def outside (c : Cluster) (id : PinId) : Outcome (Option NetId × Option LogicalId) := do
  if ← b.isClusterInput id then
    match c.locals.nodeOf id with
    | some node =>
      let n ← g.node node
      if n.net.isSome then return (n.net, n.logical) else assigned t (c.pinNet id)
    | none => assigned t (c.pinNet id)
  else assigned t (c.pinNet id)

/-- Nets that are copied do not depend on those that a pin has. -/
theorem copiedNet_congr (h : c.silent = c'.silent) (net : Option NetId) :
  c.copiedNet id net = c'.copiedNet id net
  := by
  apply congr_of_silent_eq (·.copiedNet id net) _ h
  intro c
  simp only [copiedNet, silent, Array.getElem?_map]
  cases c.locals.pins[id]? <;> rfl

/-- Nets from outside do not depend on those that a pin has. -/
theorem outside_congr (h : c.silent = c'.silent) : outside b g t c id = outside b g t c' id :=
  congr_of_silent_eq (outside b g t · id) (fun _ => rfl) h

/-- The logical net that clustering assigns to a pin is that of the net. -/
theorem logicalOf_of_assigned {own net : Option NetId} {logical : Option LogicalId}
    (h : assigned t own = .ok (net, logical)) :
  t.logicalOf? own = .ok logical
  := by
  obtain ⟨logical', hlogical, h⟩ := bind_eq_ok_iff.mp h
  cases pure_eq_ok_iff.mp h
  apply hlogical

/-- Nets from outside are assigned by clustering, and the same on graphs that differ in logical
nets, unless the pin is an input of the cluster that takes the logical net of its node. -/
theorem outside_of_silent_eq (hgraph : g.silent = g'.silent) {net : Option NetId}
    {logical : Option LogicalId} (h : outside b g t c id = .ok (net, logical)) :
  outside b g' t c id = .ok (net, logical) ∧ t.logicalOf? (c.pinNet id) = .ok logical
    ∨ ∃ node, b.isClusterInput id = .ok true ∧ c.locals.nodeOf id = some node
      ∧ logical = g.logicalAt node ∧ outside b g' t c id = .ok (net, g'.logicalAt node)
  := by
  obtain ⟨isInput, hinput, h⟩ := bind_eq_ok_iff.mp h
  rw [outside, hinput, ok_bind]
  cases isInput with
  | false => exact .inl ⟨h, logicalOf_of_assigned h⟩
  | true =>
    cases hnode : c.locals.nodeOf id with
    | none =>
      rw [hnode] at h
      exact .inl ⟨h, logicalOf_of_assigned h⟩
    | some node =>
      rw [hnode] at h
      obtain ⟨n, hn, h⟩ := bind_eq_ok_iff.mp h
      obtain ⟨n', hn', heq⟩ := RoutingGraph.exists_node_of_view_eq hgraph hn
      have hnet : n.net = n'.net := by
        injection heq
      simp only [if_true, hn', ok_bind, ← hnet]
      split at h
      · rename_i hsome
        rw [pure_eq_ok_iff, Prod.mk.injEq] at h
        right
        refine ⟨node, trivial, rfl, ?_, ?_⟩
        · rw [RoutingGraph.logicalAt_of_node hn, h.2]
        · rw [if_pos hsome, RoutingGraph.logicalAt_of_node hn', h.1]
          rfl
      · rename_i hnone
        rw [if_neg hnone]
        exact .inl ⟨h, logicalOf_of_assigned h⟩

/-- An input that is forwarded is so by an output, which is no input of the cluster. -/
theorem isClusterInput_of_forwarded (h : forwarded b c id = .ok (some q)) :
  b.isClusterInput id = .ok false
  := by
  rw [forwarded] at h
  split at h
  · cases h
  · obtain ⟨isOutput, houtput, h⟩ := bind_eq_ok_iff.mp h
    split at h
    · rename_i hout
      subst hout
      obtain ⟨p, hp, houtput⟩ := bind_eq_ok_iff.mp houtput
      split at houtput
      · cases houtput
      · rename_i hkind
        rw [BlockGraph.isClusterInput, hp]
        simp [hkind, pure, Except.pure]
    · cases h

/-- A pin takes the nets of the pin that it copies from. -/
theorem incoming_of_copies (h : Copies b c c.locals.pins id q) :
  incoming b g t c id = do
    let source ← c.locals.pin q
    return (c.copiedNet id source.net, source.logical)
  := by
  obtain ⟨s, hs, h⟩ := bind_eq_ok_iff.mp h
  rw [incoming, Local.pin, hs, ok_bind]
  rw [entry_eq_ok_iff] at hs
  cases hselected : s.selected with
  | some d =>
    rw [hselected] at h
    obtain rfl : d.pin = q := by simpa using h
    simp [copiedNet, hs, hselected]
  | none =>
    rw [hselected] at h
    simp only [isClusterInput_of_forwarded h, ok_bind, h]
    simp [copiedNet, hs, hselected]

/-- A pin that copies from none takes its nets from outside. -/
theorem incoming_of_dependency_none (h : dependency b c c.locals.pins id = .ok none) :
  incoming b g t c id = outside b g t c id
  := by
  obtain ⟨s, hs, h⟩ := bind_eq_ok_iff.mp h
  rw [incoming, Local.pin, hs, ok_bind]
  cases hselected : s.selected with
  | some d =>
    rw [hselected] at h
    cases h
  | none =>
    rw [hselected] at h
    simp only [h, ok_bind]
    rfl

/-- Nets that are taken do not depend on other pins than the one that is copied from. -/
theorem incoming_congr (hsame : c.silent = c'.silent) {next : Option PinId}
    (hnext : dependency b c c.locals.pins id = .ok next)
    (hpin : ∀ q, next = some q → c.locals.pins[q]? = c'.locals.pins[q]?) :
  incoming b g t c id = incoming b g t c' id
  := by
  have hnext' := hnext
  rw [dependency_congr hsame] at hnext'
  cases next with
  | none =>
    rw [incoming_of_dependency_none hnext, incoming_of_dependency_none hnext',
      outside_congr hsame]
  | some q =>
    rw [incoming_of_copies hnext, incoming_of_copies hnext', Local.pin, Local.pin, entry, entry,
      hpin q rfl]
    simp only [copiedNet_congr hsame]

/-- Whether a pin finds nets to take does not depend on logical nets, nor on the nets of pins. -/
theorem exists_incoming_congr (hsame : c.silent = c'.silent) (hgraph : g.silent = g'.silent)
    {next : Option PinId} (hnext : dependency b c c.locals.pins id = .ok next)
    (h : ∃ nets, incoming b g t c id = .ok nets) :
  ∃ nets, incoming b g' t c' id = .ok nets
  := by
  obtain ⟨nets, h⟩ := h
  have hnext' := hnext
  rw [dependency_congr hsame] at hnext'
  cases next with
  | some q =>
    rw [incoming_of_copies hnext] at h
    rw [incoming_of_copies hnext']
    obtain ⟨source, hsource, -⟩ := bind_eq_ok_iff.mp h
    obtain ⟨source', hsource', -⟩ := exists_pin_of_silent_eq hsame (entry_eq_ok_iff.mp hsource)
    exact ⟨_, bind_eq_ok_iff.mpr ⟨source', entry_eq_ok_iff.mpr hsource', rfl⟩⟩
  | none =>
    rw [incoming_of_dependency_none hnext, outside_congr hsame] at h
    rw [incoming_of_dependency_none hnext']
    rcases outside_of_silent_eq hgraph h with ⟨h, -⟩ | ⟨_, -, -, -, h⟩ <;> exact ⟨_, h⟩

/-! ### Propagating nets to one pin -/

/-- A pin that takes its nets changes if it is an input and its logical net does. -/
theorem propagatePin_eq_ok_iff :
  propagatePin b g t c id = .ok (count, c') ↔ ∃ net logical p s,
    incoming b g t c id = .ok (net, logical) ∧ b.pin id = .ok p ∧ c.locals.pins[id]? = some s
    ∧ count = (p.kind.isInput && s.logical != logical).toNat
    ∧ c' = { c with locals := { c.locals with pins := c.locals.pins.modify id fun s' =>
        { s' with net, logical, changed := p.kind.isInput && s.logical != logical } } }
  := by
  simp only [propagatePin, bind_eq_ok_iff, pure_eq_ok_iff, Prod.exists, alter_eq_ok_iff,
    Local.pin, entry_eq_ok_iff, Prod.mk.injEq]
  constructor
  · rintro ⟨net, logical, hin, p, hp, s, hs, _, ⟨hid, rfl⟩, rfl, rfl⟩
    refine ⟨net, logical, p, s, hin, hp, hs, ?_, rfl⟩
    cases p.kind.isInput && s.logical != logical <;> rfl
  · rintro ⟨net, logical, p, s, hin, hp, hs, rfl, rfl⟩
    refine ⟨net, logical, hin, p, hp, s, hs, _, ⟨?_, rfl⟩, ?_, rfl⟩
    · apply (Array.getElem?_eq_some_iff.mp hs).1
    · cases p.kind.isInput && s.logical != logical <;> rfl

variable (b g t) in
/-- The pin has taken its nets, coming from one cluster, and these are steady in another one. -/
structure Taken (c c' : Cluster) (id : PinId) (s s' : PinState) (p : BlockGraph.Pin) : Prop where
  old : c.locals.pins[id]? = some s
  new : c'.locals.pins[id]? = some s'
  pin : b.pin id = .ok p
  nets : incoming b g t c' id = .ok (s'.net, s'.logical)
  changed : s'.changed = (p.kind.isInput && s.logical != s'.logical)

/-- A pin that takes its nets leaves all else as it is. -/
theorem same_of_propagatePin (h : propagatePin b g t c id = .ok (count, c')) :
  c'.silent = c.silent ∧ (∀ q ≠ id, c'.locals.pins[q]? = c.locals.pins[q]?)
    ∧ count = (c'.isChanged id).toNat
  := by
  obtain ⟨net, logical, p, s, -, -, hs, rfl, rfl⟩ := propagatePin_eq_ok_iff.mp h
  refine ⟨?_, ?_, ?_⟩
  · apply silent_with_pins
    apply map_modify_of_seen
    rintro s -
    rfl
  · intro q hq
    apply getElem?_modify_of_ne hq
  · simp only [isChanged, getElem?_modify_self hs]
    rfl

/-! ### Propagating nets to pins in order -/

variable (b g t) in
/-- The pins of a list have taken their nets, all other pins are as they were. -/
structure Propagated (c c' : Cluster) (ids : List PinId) (count : Nat) : Prop where
  same : c'.silent = c.silent
  others : ∀ q ∉ ids, c'.locals.pins[q]? = c.locals.pins[q]?
  taken : ∀ id ∈ ids, ∃ s s' p, Taken b g t c c' id s s' p
  counted : count = ids.countP c'.isChanged

/-- A pin that takes its nets has taken them for all clusters in which it and the pin that it copies
from stay as they are. -/
theorem taken_of_propagatePin {c'' : Cluster} {next : Option PinId}
    (hpin : propagatePin b g t c id = .ok (count, c'')) (hsame : c.silent = c'.silent)
    (hid : c'.locals.pins[id]? = c''.locals.pins[id]?)
    (hnext : dependency b c c.locals.pins id = .ok next)
    (hstays : ∀ q, next = some q → c.locals.pins[q]? = c'.locals.pins[q]?) :
  ∃ s s' p, Taken b g t c c' id s s' p
  := by
  obtain ⟨net, logical, p, s, hin, hp, hs, -, rfl⟩ := propagatePin_eq_ok_iff.mp hpin
  use s, { s with net, logical, changed := p.kind.isInput && s.logical != logical }, p
  constructor
  case old => exact hs
  case new =>
    rw [hid, getElem?_modify_self hs]
  case pin => exact hp
  case nets => rw [← incoming_congr hsame hnext hstays, hin]
  case changed => rfl

/-- Propagating nets to sorted pins lets all of them take their nets, once and for all. -/
theorem propagated_of_propagatePins {done : Set PinId}
    (horder : InOrder b c c.locals.pins done ids)
    (h : propagatePins b g t c ids = .ok (count, c')) :
  Propagated b g t c c' ids count
  := by
  induction ids generalizing c count done with
  | nil =>
    cases pure_eq_ok_iff.mp h
    constructor <;> simp
  | cons id ids ih =>
    obtain ⟨⟨here, c''⟩, hpin, h⟩ := bind_eq_ok_iff.mp h
    obtain ⟨⟨beyond, _⟩, hrest, h⟩ := bind_eq_ok_iff.mp h
    cases pure_eq_ok_iff.mp h
    obtain ⟨hsame, hothers, hhere⟩ := same_of_propagatePin hpin
    cases horder with
    | @cons _ _ next _ fresh copies after later =>
      have hids : id ∉ ids := later.not_mem (Set.mem_insert id done)
      have hlater := ih (later.of_silent_eq hsame.symm) hrest
      have hid := hlater.others id hids
      constructor
      case same => exact hlater.same.trans hsame
      case others =>
        intro q hq
        rw [List.mem_cons, not_or] at hq
        rw [hlater.others q hq.2, hothers q hq.1]
      case taken =>
        intro q hq
        rcases List.mem_cons.mp hq with rfl | hq
        · apply taken_of_propagatePin hpin (hsame.symm.trans hlater.same.symm) hid copies
          -- the pin that is copied from is done, so it is as it was when its nets were taken
          intro r hr
          have hdone := after r hr
          have hne : r ≠ q := by
            rintro rfl
            apply fresh hdone
          rw [hlater.others r (later.not_mem (Set.mem_insert_of_mem q hdone)), hothers r hne]
        · obtain ⟨s, s', p, htaken⟩ := hlater.taken q hq
          have hold := htaken.old
          rw [hothers q (ne_of_mem_of_not_mem hq hids)] at hold
          exact ⟨s, s', p, hold, htaken.new, htaken.pin, htaken.nets, htaken.changed⟩
      case counted =>
        have hflag : c''.isChanged id = c'.isChanged id := by
          rw [isChanged, isChanged, hid]
        rw [List.countP_cons, hlater.counted, hhere, hflag, Nat.add_comm]
        cases c'.isChanged id <;> rfl

/-- Nets can be propagated to sorted pins that find nets to take. -/
theorem exists_propagatePins {done : Set PinId} (horder : InOrder b c c.locals.pins done ids)
    (h : ∀ id ∈ ids, (∃ nets, incoming b g t c id = .ok nets) ∧ (∃ p, b.pin id = .ok p)
      ∧ ∃ s, c.locals.pins[id]? = some s) :
  ∃ count c', propagatePins b g t c ids = .ok (count, c')
  := by
  induction ids generalizing c done with
  | nil => exact ⟨0, c, rfl⟩
  | cons id ids ih =>
    obtain ⟨⟨⟨net, logical⟩, hin⟩, ⟨p, hp⟩, s, hs⟩ := h id List.mem_cons_self
    have hpin := propagatePin_eq_ok_iff.mpr ⟨net, logical, p, s, hin, hp, hs, rfl, rfl⟩
    obtain ⟨hsame, -, -⟩ := same_of_propagatePin hpin
    cases horder with
    | cons fresh copies after later =>
      obtain ⟨beyond, c', hrest⟩ := ih (later.of_silent_eq hsame.symm) (by
        intro q hq
        obtain ⟨hin, hp, s, hs⟩ := h q (List.mem_cons_of_mem id hq)
        obtain ⟨next, hnext⟩ := later.exists_dependency q hq
        obtain ⟨s', hs', -⟩ := exists_pin_of_silent_eq hsame.symm hs
        exact ⟨exists_incoming_congr hsame.symm rfl hnext hin, hp, s', hs'⟩)
      exact ⟨_, c', bind_eq_ok_iff.mpr ⟨_, hpin, bind_eq_ok_iff.mpr ⟨_, hrest, rfl⟩⟩⟩

/-! ### Steady clusters -/

/-- Once every pin has taken its nets, a cluster is steady. -/
theorem Propagated.steady (h : Propagated b g t c c' ids count)
    (hids : ∀ id < c.locals.pins.size, id ∈ ids) :
  Steady b g t c'
  := by
  intro id s hs
  obtain ⟨hlt, -⟩ := Array.getElem?_eq_some_iff.mp hs
  rw [size_eq_of_silent_eq h.same] at hlt
  obtain ⟨_, s', p, htaken⟩ := h.taken id (hids id hlt)
  have hnew := htaken.new
  rw [hs] at hnew
  cases hnew
  apply htaken.nets

/-- Nothing changes in a steady cluster without changed pins. -/
theorem propagatePins_of_steady (h : Steady b g t c)
    (hquiet : ∀ (id : PinId) s, c.locals.pins[id]? = some s → s.changed = false)
    (hids : ∀ id ∈ ids, (∃ p, b.pin id = .ok p) ∧ ∃ s, c.locals.pins[id]? = some s) :
  propagatePins b g t c ids = .ok (0, c)
  := by
  induction ids with
  | nil => rfl
  | cons id ids ih =>
    obtain ⟨⟨p, hp⟩, s, hs⟩ := hids id List.mem_cons_self
    have hpins : c.locals.pins.modify id (fun s' =>
        { s' with net := s.net, logical := s.logical,
                  changed := p.kind.isInput && s.logical != s.logical }) = c.locals.pins := by
      apply Array.ext_getElem?
      intro q
      rw [Array.getElem?_modify]
      split
      · rename_i heq
        subst heq
        have hchanged := hquiet id s hs
        rw [hs, Option.map_some]
        cases s
        simp_all
      · rfl
    have hpin : propagatePin b g t c id = .ok (0, c) := by
      apply propagatePin_eq_ok_iff.mpr
      refine ⟨s.net, s.logical, p, s, h id s hs, hp, hs, ?_, ?_⟩
      · simp
      · rw [hpins]
    have hrest := ih fun q hq => hids q (List.mem_cons_of_mem id hq)
    exact bind_eq_ok_iff.mpr ⟨_, hpin, bind_eq_ok_iff.mpr ⟨_, hrest, rfl⟩⟩

/-- In a steady cluster a pin carries the logical net of the pin that it copies from. -/
theorem Steady.logicalAt_of_copies (h : Steady b g t c) (hcopies : Copies b c c.locals.pins id q) :
  c.logicalAt id = c.logicalAt q
  := by
  obtain ⟨s, hs, -⟩ := bind_eq_ok_iff.mp hcopies
  have hin := h id s (entry_eq_ok_iff.mp hs)
  rw [incoming_of_copies hcopies] at hin
  obtain ⟨source, hsource, hin⟩ := bind_eq_ok_iff.mp hin
  rw [pure_eq_ok_iff, Prod.mk.injEq] at hin
  rw [logicalAt_of_pin hs, logicalAt_of_pin hsource, hin.2]

/-- In a steady cluster a pin that copies from none has the nets from outside. -/
theorem Steady.outside_eq (h : Steady b g t c) (hend : dependency b c c.locals.pins id = .ok none) :
  outside b g t c id = .ok (c.netAt id, c.logicalAt id)
  := by
  obtain ⟨s, hs, -⟩ := bind_eq_ok_iff.mp hend
  rw [entry_eq_ok_iff] at hs
  rw [← incoming_of_dependency_none hend, h id s hs, netAt, logicalAt, hs]
  rfl

/-- A pin that carries different logical nets is one of both clusters. -/
theorem exists_pins_of_logicalAt_ne (hsame : c.silent = c'.silent)
    (hne : c.logicalAt id ≠ c'.logicalAt id) :
  ∃ s s', c.locals.pins[id]? = some s ∧ c'.locals.pins[id]? = some s' ∧ s.logical ≠ s'.logical
  := by
  cases hs : c.locals.pins[id]? with
  | some s =>
    obtain ⟨s', hs', -⟩ := exists_pin_of_silent_eq hsame hs
    exact ⟨s, s', rfl, hs', by simpa [logicalAt, hs, hs'] using hne⟩
  | none =>
    cases hs' : c'.locals.pins[id]? with
    | some s' =>
      obtain ⟨s, hs₁, -⟩ := exists_pin_of_silent_eq hsame.symm hs'
      rw [hs] at hs₁
      cases hs₁
    | none => cases hne (by simp [logicalAt, hs, hs'])

/-- Pins of two steady clusters that differ in nets only carry the same net, and logical nets that
are related as those of nodes are, provided that each one that clustering assigns is to itself. -/
theorem Steady.compare {R : Option LogicalId → Option LogicalId → Prop} (h : Steady b g t c)
    (h' : Steady b g' t c') (hsame : c.silent = c'.silent) (hgraph : g.silent = g'.silent)
    (hdepends : ∀ id < c.locals.pins.size, ∃ next, dependency b c c.locals.pins id = .ok next)
    (hassigned : ∀ id logical, t.logicalOf? (c.pinNet id) = .ok logical → R logical logical)
    (hnodes : ∀ q, R (g.logicalAt q) (g'.logicalAt q)) (hgrounded : Grounded b c c.locals.pins id)
    {s s' : PinState} (hs : c.locals.pins[id]? = some s) (hs' : c'.locals.pins[id]? = some s') :
  s.net = s'.net ∧ R s.logical s'.logical
  := by
  induction hgrounded generalizing s s' with
  | intro id _ ih =>
    obtain ⟨next, hnext⟩ := hdepends id (Array.getElem?_eq_some_iff.mp hs).1
    have hnext' := hnext
    rw [dependency_congr hsame] at hnext'
    have hin := h id s hs
    have hin' := h' id s' hs'
    cases next with
    | some q =>
      rw [incoming_of_copies hnext] at hin
      rw [incoming_of_copies hnext'] at hin'
      obtain ⟨source, hsource, hin⟩ := bind_eq_ok_iff.mp hin
      obtain ⟨source', hsource', hin'⟩ := bind_eq_ok_iff.mp hin'
      rw [pure_eq_ok_iff, Prod.mk.injEq] at hin hin'
      obtain ⟨hnet, hlogical⟩ :=
        ih q hnext (entry_eq_ok_iff.mp hsource) (entry_eq_ok_iff.mp hsource')
      rw [← hin.1, ← hin.2, ← hin'.1, ← hin'.2, hnet, copiedNet_congr hsame]
      exact ⟨rfl, hlogical⟩
    | none =>
      rw [incoming_of_dependency_none hnext] at hin
      rw [incoming_of_dependency_none hnext', ← outside_congr hsame] at hin'
      rcases outside_of_silent_eq hgraph hin with ⟨hin, hlogical⟩ | ⟨node, -, -, hold, hin⟩ <;>
        rw [hin', Except.ok.injEq, Prod.mk.injEq] at hin
      · rw [hin.1, hin.2]
        exact ⟨rfl, hassigned id _ hlogical⟩
      · rw [hin.1, hin.2, hold]
        exact ⟨rfl, hnodes node⟩

/-- Where a steady cluster carries another logical net than it did before, the pin at the end of
the chain does: an input of the cluster, whose node carries another one. -/
theorem Steady.exists_end (h : Steady b g t c) (h' : Steady b g' t c')
    (hsame : c.silent = c'.silent) (hgraph : g.silent = g'.silent)
    (hdepends : ∀ id < c.locals.pins.size, ∃ next, dependency b c c.locals.pins id = .ok next)
    (hgrounded : Grounded b c c.locals.pins id) (hne : c.logicalAt id ≠ c'.logicalAt id) :
  ∃ e node, ReflTransGen (Copies b c c.locals.pins) id e
    ∧ dependency b c c.locals.pins e = .ok none ∧ b.isClusterInput e = .ok true
    ∧ c.locals.nodeOf e = some node ∧ g.logicalAt node ≠ g'.logicalAt node
    ∧ c.logicalAt e ≠ c'.logicalAt e
  := by
  induction hgrounded with
  | intro id _ ih =>
    obtain ⟨s, s', hs, hs', hlogical⟩ := exists_pins_of_logicalAt_ne hsame hne
    obtain ⟨next, hnext⟩ := hdepends id (Array.getElem?_eq_some_iff.mp hs).1
    have hnext' := hnext
    rw [dependency_congr hsame] at hnext'
    cases next with
    | some q =>
      rw [h.logicalAt_of_copies hnext, h'.logicalAt_of_copies hnext'] at hne
      obtain ⟨e, node, hchain, hrest⟩ := ih q hnext hne
      exact ⟨e, node, hchain.head hnext, hrest⟩
    | none =>
      have hin := h id s hs
      have hin' := h' id s' hs'
      rw [incoming_of_dependency_none hnext] at hin
      rw [incoming_of_dependency_none hnext', ← outside_congr hsame] at hin'
      rcases outside_of_silent_eq hgraph hin with ⟨hin, -⟩ | ⟨node, hinput, hnode, hold, hin⟩ <;>
        rw [hin', Except.ok.injEq, Prod.mk.injEq] at hin
      · cases hlogical hin.2.symm
      · refine ⟨id, node, .refl, hnext, hinput, hnode, ?_, hne⟩
        rw [← hold, ← hin.2]
        apply hlogical

end RoutingFabric.Cluster
