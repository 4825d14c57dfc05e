import RoutingFabric.Proofs.Faults

/-!
# Safe phases

A phase is safe if the fault that may stop it and the events that it reports are of given kinds.
Phases made of safe phases are safe, where each has to be so only in the states that the ones before
it lead to.
-/

namespace RoutingFabric.Phase

variable {σ τ α β ι : Type} {P : Fault → Prop} {Q : Event → Prop} {s : σ}

/-- The phase started from the state is stopped at most by a fault with the one property, and
reports only events with the other. -/
structure Safe (P : Fault → Prop) (Q : Event → Prop) (p : Phase σ α) (s : σ) : Prop where
  faults : p.FaultsIn P s
  events : ∀ e ∈ (p.run s).events, Q e

/-- More faults may be allowed. -/
theorem Safe.imp {P' : Fault → Prop} {p : Phase σ α} (hp : p.Safe P Q s) (h : ∀ e, P e → P' e) :
  p.Safe P' Q s
  := ⟨hp.faults.imp h, hp.events⟩

/-- A phase that runs like a safe one is safe. -/
theorem Safe.of_run_eq {p q : Phase σ α} (hp : p.Safe P Q s) (h : q.run s = p.run s) :
  q.Safe P Q s
  := by
  constructor
  · rw [FaultsIn, h]
    apply hp.faults
  · rw [h]
    apply hp.events

/-- A value is safe. -/
theorem safe_pure (a : α) : (pure a : Phase σ α).Safe P Q s := by
  constructor
  · apply faultsIn_ok
  · intro e he
    cases he

/-- Replacing the state is safe. -/
theorem safe_put (s' : σ) : (put s').Safe P Q s := by
  constructor
  · apply faultsIn_ok
  · intro e he
    cases he

/-- A report is safe if the event has the property. -/
theorem safe_report {e : Event} (he : Q e) : (report e).Safe P Q s := by
  constructor
  · apply faultsIn_ok
  · intro e' he'
    cases List.mem_singleton.mp he'
    apply he

/-- An operation is safe as far as its faults are. -/
theorem safe_lift {r : Outcome α} (hr : RoutingFabric.FaultsIn P r) : (lift r).Safe P Q s := by
  constructor
  · apply hr
  · intro e he
    cases he

/-- A phase on a part of the state is safe if it is on that part. -/
theorem safe_focus {view : σ → τ} {update : σ → τ → σ} {p : Phase τ α} (hp : p.Safe P Q (view s)) :
  (focus view update p).Safe P Q s
  := ⟨hp.faults, hp.events⟩

/-- Two phases are safe if the first is, and the second is wherever the first leads. -/
theorem Safe.bind {p : Phase σ α} {f : α → Phase σ β} (hp : p.Safe P Q s)
    (hf : ∀ a s', p.Gives s a s' → (f a).Safe P Q s') :
  (p >>= f).Safe P Q s
  := by
  constructor
  · apply hp.faults.bind
    intro a s' h
    apply (hf a s' h).faults
  · intro e he
    cases hrun : p.run s with
    | mk outcome s' events =>
      have hevents := hp.events
      rw [hrun] at hevents
      cases outcome with
      | ok a =>
        rw [run_bind_of_ok hrun, List.mem_append] at he
        rcases he with he | he
        · apply hevents e he
        · apply (hf a s' ⟨by rw [hrun], by rw [hrun]⟩).events e he
      | error stop =>
        rw [run_bind_of_error hrun] at he
        apply hevents e he

/-- A phase that starts by asking for the state. -/
theorem safe_state_bind {f : σ → Phase σ β} (hf : (f s).Safe P Q s) :
  (state >>= f).Safe P Q s
  := by
  apply Safe.bind
  · constructor
    · apply faultsIn_ok
    · intro e he
      cases he
  · intro a s' h
    obtain ⟨rfl, rfl⟩ := gives_state_iff.mp h
    apply hf

/-- A phase that starts by an operation. -/
theorem safe_lift_bind {r : Outcome α} {f : α → Phase σ β} (hr : RoutingFabric.FaultsIn P r)
    (hf : ∀ a, r = .ok a → (f a).Safe P Q s) :
  (lift r >>= f).Safe P Q s
  := by
  apply (safe_lift hr).bind
  intro a s' h
  obtain ⟨ha, rfl⟩ := gives_lift_iff.mp h
  apply hf a ha

/-- A phase that starts by replacing the state. -/
theorem safe_put_bind {s' : σ} {f : Unit → Phase σ β} (hf : (f ()).Safe P Q s') :
  (put s' >>= f).Safe P Q s
  := by
  apply (safe_put s').bind
  intro _ s'' h
  obtain rfl := gives_put_iff.mp h
  apply hf

/-- A phase that starts by a report. -/
theorem safe_report_bind {e : Event} {f : Unit → Phase σ β} (he : Q e)
    (hf : (f ()).Safe P Q s) :
  (report e >>= f).Safe P Q s
  := by
  apply (safe_report he).bind
  intro _ s' h
  obtain rfl := gives_report_iff.mp h
  apply hf

/-- Phases, one for each item of a list, are safe if each is where an invariant holds. -/
theorem safe_each {p : ι → Phase σ Unit} {is : List ι} {I : σ → Prop} (hs : I s)
    (hp : ∀ i ∈ is, ∀ s, I s → (p i).Safe P Q s ∧ ∀ s', (p i).Gives s () s' → I s') :
  (each p is).Safe P Q s
  := by
  induction is generalizing s with
  | nil => apply safe_pure
  | cons i is ih =>
    obtain ⟨hi, hkeep⟩ := hp i List.mem_cons_self s hs
    apply hi.bind
    intro _ s' h
    apply ih (hkeep s' h)
    intro j hj
    apply hp j (List.mem_cons_of_mem i hj)

/-! ### Phases whose events do not matter -/

/-- Without regard to events a phase is safe as far as its faults are. -/
theorem FaultsIn.safe {p : Phase σ α} (hp : p.FaultsIn P s) : p.Safe P (fun _ => True) s :=
  ⟨hp, fun _ _ => trivial⟩

/-- Faults of a phase that starts by asking for the state. -/
theorem faultsIn_state_bind {f : σ → Phase σ β} (hf : (f s).FaultsIn P s) :
  (state >>= f).FaultsIn P s
  := (safe_state_bind hf.safe).faults

/-- Faults of a phase that starts by an operation. -/
theorem faultsIn_lift_bind {r : Outcome α} {f : α → Phase σ β} (hr : RoutingFabric.FaultsIn P r)
    (hf : ∀ a, r = .ok a → (f a).FaultsIn P s) :
  (lift r >>= f).FaultsIn P s
  := (safe_lift_bind hr fun a ha => (hf a ha).safe).faults

/-- Faults of phases, one for each item of a list, are faults of these where an invariant holds. -/
theorem faultsIn_each {p : ι → Phase σ Unit} {is : List ι} {I : σ → Prop} (hs : I s)
    (hp : ∀ i ∈ is, ∀ s, I s → (p i).FaultsIn P s ∧ ∀ s', (p i).Gives s () s' → I s') :
  (each p is).FaultsIn P s
  := by
  apply Safe.faults
  apply safe_each (Q := fun _ => True) hs
  intro i hi s hs
  obtain ⟨hfaults, hkeep⟩ := hp i hi s hs
  exact ⟨hfaults.safe, hkeep⟩

end RoutingFabric.Phase
