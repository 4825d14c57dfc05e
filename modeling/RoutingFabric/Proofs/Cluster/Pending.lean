import Mathlib.Data.List.Nodup
import Mathlib.Data.List.Perm.Subperm
import RoutingFabric.Cluster.Selection
import RoutingFabric.Proofs.Cluster.Links

/-!
# Pins that copy from a pin that waits

A pin copies from one other pin at most. The pins passed on the way to the first one that waits
are at different distances from it, so they are different, and a search over as many pins as
there are finds it.
-/

namespace RoutingFabric.Cluster

variable (b : BlockGraph) (c : Cluster)

/-- So many links of pins that do not wait lead from the pin to one that waits. -/
inductive PendingAfter (w : Walk) : Nat → PinId → Prop
  /-- the pin itself waits -/
  | here {id : PinId} (visit : w.visit[id]? = some .visiting) : PendingAfter w 0 id
  /-- the pin it copies from is closer by one link -/
  | beyond {id q : PinId} {v : Visit} {links : Nat} (visit : w.visit[id]? = some v)
    (ne : v ≠ .visiting) (copies : Copies b c w.pins id q) (rest : PendingAfter w links q) :
    PendingAfter w (links + 1) id

variable {b c} {w : Walk}

/-- The number of links is determined. -/
theorem PendingAfter.unique {m n : Nat} {id : PinId}
    (h : PendingAfter b c w m id) (h' : PendingAfter b c w n id) :
  m = n
  := by
  induction h generalizing n with
  | here visit =>
    cases h' with
    | here => rfl
    | beyond visit' ne =>
      rw [visit] at visit'
      cases visit'
      contradiction
  | beyond visit ne copies rest ih =>
    cases h' with
    | here visit' =>
      rw [visit] at visit'
      cases visit'
      contradiction
    | beyond visit' ne' copies' rest' =>
      rw [Copies, copies] at copies'
      cases copies'
      rw [ih rest']

/-- The pins on the way are different pins of the table, and no farther from the one that
waits. -/
theorem PendingAfter.exists_way {links : Nat} {id : PinId} (h : PendingAfter b c w links id) :
  ∃ way : List PinId, way.length = links + 1 ∧ way.Nodup
    ∧ ∀ q ∈ way, q < w.visit.size ∧ ∃ m ≤ links, PendingAfter b c w m q
  := by
  induction h with
  | @here id visit =>
    use [id], rfl
    constructor
    · apply List.nodup_singleton
    · intro q hq
      obtain rfl := List.mem_singleton.mp hq
      obtain ⟨hlt, -⟩ := Array.getElem?_eq_some_iff.mp visit
      use hlt, 0, Nat.le_refl 0
      apply PendingAfter.here visit
  | @beyond id q v links visit ne copies rest ih =>
    obtain ⟨way, hlength, hnodup, hway⟩ := ih
    have hid := PendingAfter.beyond visit ne copies rest
    use id :: way
    constructor
    · rw [List.length_cons, hlength]
    constructor
    · rw [List.nodup_cons]
      constructor
      · intro hmem
        obtain ⟨-, m, hm, hpending⟩ := hway id hmem
        have := hid.unique hpending
        omega
      · apply hnodup
    · intro q hq
      rcases List.mem_cons.mp hq with rfl | hq
      · obtain ⟨hlt, -⟩ := Array.getElem?_eq_some_iff.mp visit
        use hlt, links + 1, Nat.le_refl _
      · obtain ⟨hlt, m, hm, hpending⟩ := hway q hq
        use hlt, m, by omega

/-- There are fewer links than pins. -/
theorem PendingAfter.lt_size {links : Nat} {id : PinId} (h : PendingAfter b c w links id) :
  links < w.visit.size
  := by
  obtain ⟨way, hlength, hnodup, hway⟩ := h.exists_way
  have hsub : way ⊆ List.range w.visit.size := by
    intro q hq
    apply List.mem_range.mpr
    apply (hway q hq).1
  have := (List.subperm_of_subset hnodup hsub).length_le
  rw [List.length_range] at this
  omega

/-- The search finds the pin that waits, if it may look far enough. -/
theorem PendingAfter.dependsOnPending {links : Nat} {id : PinId}
    (h : PendingAfter b c w links id) {n : Nat} (hn : links < n) :
  dependsOnPending b c w n (some id) = .ok true
  := by
  induction h generalizing n with
  | here visit =>
    obtain ⟨n, rfl⟩ := Nat.exists_eq_succ_of_ne_zero (by omega : n ≠ 0)
    rw [Cluster.dependsOnPending, entry_eq_ok_iff.mpr visit]
    rfl
  | @beyond id q v links visit ne copies rest ih =>
    obtain ⟨n, rfl⟩ := Nat.exists_eq_succ_of_ne_zero (by omega : n ≠ 0)
    have hrest := ih (show links < n by omega)
    rw [Cluster.dependsOnPending, entry_eq_ok_iff.mpr visit]
    cases v with
    | visiting => contradiction
    | unvisited =>
      rw [ok_bind, copies, ok_bind, hrest]
    | done =>
      rw [ok_bind, copies, ok_bind, hrest]

/-- What the search finds is there. -/
theorem pendingAfter_of_dependsOnPending {n : Nat} {id : PinId}
    (h : dependsOnPending b c w n (some id) = .ok true) :
  ∃ links, PendingAfter b c w links id
  := by
  induction n generalizing id with
  | zero => simp [Cluster.dependsOnPending, pure, Except.pure] at h
  | succ n ih =>
    rw [dependsOnPending] at h
    simp only [bind_eq_ok_iff, entry_eq_ok_iff] at h
    obtain ⟨v, hv, h⟩ := h
    by_cases hvisiting : v = .visiting
    · use 0
      apply PendingAfter.here
      rw [hv, hvisiting]
    · have h : (dependency b c w.pins id >>= dependsOnPending b c w n) = .ok true := by
        cases v <;> trivial
      obtain ⟨next, hnext, h⟩ := bind_eq_ok_iff.mp h
      cases next with
      | none =>
        cases n <;> simp [Cluster.dependsOnPending, pure, Except.pure] at h
      | some q =>
        obtain ⟨links, hlinks⟩ := ih h
        use links + 1
        apply PendingAfter.beyond hv hvisiting hnext hlinks

/-- The search over all pins finds a pin that waits exactly when there is one. -/
theorem dependsOnPending_eq_false {id : PinId} (hsize : w.visit.size = w.pins.size)
    (h : dependsOnPending b c w (w.pins.size + 1) (some id) = .ok false) (links : Nat) :
  ¬ PendingAfter b c w links id
  := by
  intro hlinks
  have hlt := hlinks.lt_size
  rw [hlinks.dependsOnPending (by omega)] at h
  cases h

end RoutingFabric.Cluster
