import RoutingFabric.Proofs.Phase

/-!
# Faults of operations and phases

An operation made of steps is stopped by a fault only where one of its steps is. So it is enough to
look at the steps that look something up, and to say which faults they may have.
-/

namespace RoutingFabric

variable {α β σ τ ι : Type} {P : Fault → Prop}

/-- A fault that stops the operation has the property. -/
structure FaultsIn (P : Fault → Prop) (r : Outcome α) : Prop where
  property : ∀ e, r = .error (.fault e) → P e

/-! ### Operations -/

/-- A success has no fault. -/
theorem faultsIn_ok (a : α) : FaultsIn P (.ok a : Outcome α) := by
  constructor
  intro e h
  cases h

/-- A problem is no fault. -/
theorem faultsIn_fail (p : Problem) : FaultsIn P (fail p : Outcome α) := by
  constructor
  intro e h
  cases h

/-- An operation may have the one fault that stops it. -/
theorem faultsIn_fault {e : Fault} (he : P e) : FaultsIn P (fault e : Outcome α) := by
  constructor
  intro e' h
  cases h
  apply he

/-- Faults of two steps are faults of the first, or of the second on the value of the first. -/
theorem FaultsIn.bind {x : Outcome α} {f : α → Outcome β} (hx : FaultsIn P x)
    (hf : ∀ a, x = .ok a → FaultsIn P (f a)) :
  FaultsIn P (x >>= f)
  := by
  constructor
  intro e h
  rcases bind_eq_error_iff.mp h with h | ⟨a, ha, h⟩
  · apply hx.property e h
  · apply (hf a ha).property e h

/-- Faults may be allowed in more cases. -/
theorem FaultsIn.imp {Q : Fault → Prop} {r : Outcome α} (hr : FaultsIn P r)
    (h : ∀ e, P e → Q e) :
  FaultsIn Q r
  := by
  constructor
  intro e he
  apply h e (hr.property e he)

/-- An operation with neither problems nor faults succeeds. -/
theorem Problemless.exists_ok {r : Outcome α} (hr : Problemless r)
    (hfaults : FaultsIn (fun _ => False) r) :
  ∃ a, r = .ok a
  := by
  cases h : r with
  | ok a => use a
  | error e =>
    obtain ⟨e, rfl⟩ := hr.exists_fault h
    cases hfaults.property e h

/-- An entry of a table is looked up without a fault. -/
theorem faultsIn_entry {xs : Array α} {i : Nat} (h : i < xs.size) : FaultsIn P (entry xs i) := by
  rw [entry_of_lt h]
  apply faultsIn_ok

/-- The only fault in looking up an entry of a table is that it is not there. -/
theorem faultsIn_entry_of_imp {xs : Array α} {i : Nat} (h : xs.size ≤ i → P .outOfRange) :
  FaultsIn P (entry xs i)
  := by
  by_cases hi : i < xs.size
  · apply faultsIn_entry hi
  · rw [entry, Array.getElem?_eq_none (Nat.le_of_not_lt hi)]
    apply faultsIn_fault (h (Nat.le_of_not_lt hi))

/-- An entry of a table is changed without a fault. -/
theorem faultsIn_alter {xs : Array α} {i : Nat} {f : α → α} (h : i < xs.size) :
  FaultsIn P (alter xs i f)
  := by
  rw [alter_of_lt f h]
  apply faultsIn_ok

/-- Faults of a loop are faults of its steps. -/
theorem faultsIn_forM {xs : List α} {f : α → Outcome Unit} (hf : ∀ x ∈ xs, FaultsIn P (f x)) :
  FaultsIn P (xs.forM f)
  := by
  induction xs with
  | nil => apply faultsIn_ok
  | cons x xs ih =>
    change FaultsIn P (f x >>= fun _ => xs.forM f)
    apply (hf x List.mem_cons_self).bind
    intro _ _
    apply ih
    intro y hy
    apply hf y (List.mem_cons_of_mem x hy)

/-- Faults of a selective map are faults of its steps. -/
theorem faultsIn_filterMapM {xs : List α} {f : α → Outcome (Option β)}
    (hf : ∀ x ∈ xs, FaultsIn P (f x)) :
  FaultsIn P (xs.filterMapM f)
  := by
  induction xs with
  | nil => apply faultsIn_ok
  | cons x xs ih =>
    have hrest := ih fun y hy => hf y (List.mem_cons_of_mem x hy)
    rw [List.filterMapM_cons]
    apply (hf x List.mem_cons_self).bind
    rintro (_ | y) _
    · apply hrest
    · apply hrest.bind
      intro ys _
      apply faultsIn_ok

/-- Faults of a map are faults of its steps. -/
theorem faultsIn_mapM {xs : List α} {f : α → Outcome β} (hf : ∀ x ∈ xs, FaultsIn P (f x)) :
  FaultsIn P (xs.mapM f)
  := by
  induction xs with
  | nil => apply faultsIn_ok
  | cons x xs ih =>
    rw [List.mapM_cons]
    apply (hf x List.mem_cons_self).bind
    rintro y -
    apply (ih fun z hz => hf z (List.mem_cons_of_mem x hz)).bind
    rintro ys -
    apply faultsIn_ok

/-! ### Phases -/

namespace Phase

/-- A fault that stops the phase started from the state has the property. -/
def FaultsIn (P : Fault → Prop) (p : Phase σ α) (s : σ) : Prop :=
  RoutingFabric.FaultsIn P (p.run s).outcome

/-- Faults of two phases are faults of the first, or of the second from where the first leads. -/
theorem FaultsIn.bind {p : Phase σ α} {f : α → Phase σ β} {s : σ} (hp : p.FaultsIn P s)
    (hf : ∀ a s', p.Gives s a s' → (f a).FaultsIn P s') :
  (p >>= f).FaultsIn P s
  := by
  rw [FaultsIn, outcome_bind]
  apply RoutingFabric.FaultsIn.bind hp
  intro a ha
  apply hf a _ ⟨ha, rfl⟩

/-- Faults may be allowed in more cases. -/
theorem FaultsIn.imp {Q : Fault → Prop} {p : Phase σ α} {s : σ} (hp : p.FaultsIn P s)
    (h : ∀ e, P e → Q e) :
  p.FaultsIn Q s
  := RoutingFabric.FaultsIn.imp hp h

end Phase

end RoutingFabric
