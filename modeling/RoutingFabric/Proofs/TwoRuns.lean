import RoutingFabric.Proofs.Phase
import RoutingFabric.Proofs.Tables

/-!
# Two runs of a phase

Two runs of a phase, from two states, agree if they have one outcome and lead to related states
where they succeed. Runs of phases made of parts agree if those of the parts do. In a loop, what the
phase of each item makes the same in both states is the same after all.
-/

namespace RoutingFabric

/-- Two outcomes are one stop, or two values that are related. -/
inductive Related {α : Type} (T : α → α → Prop) : Outcome α → Outcome α → Prop where
  | ok {a a' : α} (h : T a a') : Related T (.ok a) (.ok a')
  | error (e : Stop) : Related T (.error e) (.error e)

variable {σ α β ι : Type} {T : α → α → Prop}

/-- Two steps have related outcomes if the first do, and the second do on related values. -/
theorem Related.bind {T' : β → β → Prop} {x y : Outcome α} {f f' : α → Outcome β}
    (h : Related T x y) (hf : ∀ a a', T a a' → Related T' (f a) (f' a')) :
  Related T' (x >>= f) (y >>= f')
  := by
  cases h with
  | ok hT => apply hf _ _ hT
  | error e => apply Related.error

/-- Two outcomes that are the same stop are related. -/
theorem related_fail (p : Problem) : Related T (fail p) (fail p) := Related.error (.problem p)

/-- Entries of two tables are looked up alike, if they are seen to be the same. -/
theorem related_entry {view : α → β} {xs ys : Array α} (i : Nat)
    (h : xs.map view = ys.map view) :
  Related (fun a a' => view a = view a') (entry xs i) (entry ys i)
  := by
  rw [entry, entry]
  cases hx : xs[i]? with
  | none =>
    rw [getElem?_eq_none_of_map_eq h hx]
    apply Related.error
  | some x =>
    obtain ⟨y, hy, heq⟩ := exists_getElem?_of_map_eq h hx
    rw [hy]
    exact Related.ok heq

/-- Entries of two tables of one size are changed alike. -/
theorem related_alter {xs ys : Array α} (i : Nat) (f : α → α) (h : xs.size = ys.size) :
  Related (fun xs' ys' => alter xs i f = .ok xs' ∧ alter ys i f = .ok ys') (alter xs i f)
    (alter ys i f)
  := by
  rw [alter, alter, h]
  split
  · exact Related.ok ⟨rfl, rfl⟩
  · apply Related.error

namespace Phase

variable {S : σ → σ → Prop} {s t s' t' : σ}

/-- Two runs have one outcome, and lead to related states where they succeed. -/
structure Agree (S : σ → σ → Prop) (p : Phase σ α) (s : σ) (q : Phase σ α) (t : σ) : Prop where
  outcome : (p.run s).outcome = (q.run t).outcome
  states : ∀ a s' t', p.Gives s a s' → q.Gives t a t' → S s' t'

/-- A run agrees with itself. -/
theorem agree_self (p : Phase σ α) (s : σ) : Agree Eq p s p s := by
  constructor
  · rfl
  · rintro a s' t' ⟨-, rfl⟩ ⟨-, rfl⟩
    rfl

/-- Two runs that agree succeed together. -/
theorem Agree.exists_gives {p q : Phase σ α} (h : Agree S p s q t) {a : α} (hp : p.Gives s a s') :
  ∃ t', q.Gives t a t' ∧ S s' t'
  := by
  have hq : q.Gives t a (q.run t).state := ⟨h.outcome ▸ hp.1, rfl⟩
  exact ⟨_, hq, h.states a s' _ hp hq⟩

/-- The states may be related in more cases. -/
theorem Agree.imp {S' : σ → σ → Prop} {p q : Phase σ α} (h : Agree S p s q t)
    (himp : ∀ s' t', S s' t' → S' s' t') :
  Agree S' p s q t
  := by
  constructor
  · apply h.outcome
  · intro a s' t' hp hq
    apply himp s' t' (h.states a s' t' hp hq)

/-! ### Steps -/

/-- Runs of two phases agree if those of the first do, and those of the second do from where the
first leads. -/
theorem Agree.bind {R : σ → σ → Prop} {p q : Phase σ α} {f f' : α → Phase σ β}
    (h : Agree R p s q t) (hf : ∀ a s' t', R s' t' → Agree S (f a) s' (f' a) t') :
  Agree S (p >>= f) s (q >>= f') t
  := by
  constructor
  · rw [outcome_bind, outcome_bind, ← h.outcome]
    cases hp : (p.run s).outcome with
    | error e => rfl
    | ok a =>
      obtain ⟨t', hq, hR⟩ := h.exists_gives ⟨hp, rfl⟩
      rw [ok_bind, ok_bind, hq.2]
      apply (hf a _ t' hR).outcome
  · intro b s'' t'' hp hq
    obtain ⟨a, s', hp, hf₁⟩ := gives_bind_iff.mp hp
    obtain ⟨a', t', hq, hf₂⟩ := gives_bind_iff.mp hq
    obtain rfl : a = a' := by
      have := h.outcome
      rw [hp.1, hq.1] at this
      exact Except.ok.inj this
    apply (hf a s' t' (h.states a s' t' hp hq)).states b s'' t'' hf₁ hf₂

/-- Runs that end with a value. -/
theorem agree_pure (a : α) (h : S s t) : Agree S (pure a) s (pure a) t := by
  constructor
  · rfl
  · intro b s' t' hp hq
    obtain ⟨-, rfl⟩ := gives_pure_iff.mp hp
    obtain ⟨-, rfl⟩ := gives_pure_iff.mp hq
    apply h

/-- Runs that end with a report. -/
theorem agree_report (e e' : Event) (h : S s t) : Agree S (report e) s (report e') t := by
  constructor
  · rfl
  · intro b s' t' hp hq
    obtain rfl := gives_report_iff.mp hp
    obtain rfl := gives_report_iff.mp hq
    apply h

/-- Runs that end with replacing the state. -/
theorem agree_put (h : S s' t') : Agree S (put s') s (put t') t := by
  constructor
  · rfl
  · intro b s'' t'' hp hq
    obtain rfl := gives_put_iff.mp hp
    obtain rfl := gives_put_iff.mp hq
    apply h

/-- Runs that start by asking for the state. -/
theorem agree_state_bind {f f' : σ → Phase σ β} (h : Agree S (f s) s (f' t) t) :
  Agree S (state >>= f) s (state >>= f') t
  := by
  constructor
  · rw [outcome_bind, outcome_bind]
    apply h.outcome
  · intro b s' t' hp hq
    obtain ⟨_, _, hs, hp⟩ := gives_bind_iff.mp hp
    obtain ⟨_, _, ht, hq⟩ := gives_bind_iff.mp hq
    obtain ⟨rfl, rfl⟩ := gives_state_iff.mp hs
    obtain ⟨rfl, rfl⟩ := gives_state_iff.mp ht
    apply h.states b s' t' hp hq

/-- Runs that start by replacing the state. -/
theorem agree_put_bind {f f' : Unit → Phase σ β} (h : Agree S (f ()) s' (f' ()) t') :
  Agree S (put s' >>= f) s (put t' >>= f') t
  := by
  apply (agree_put (S := fun x y => x = s' ∧ y = t') ⟨rfl, rfl⟩).bind
  rintro _ _ _ ⟨rfl, rfl⟩
  apply h

/-- Runs that start by an operation with related outcomes. -/
theorem agree_lift_bind {r r' : Outcome α} {f f' : α → Phase σ β} (h : Related T r r')
    (hf : ∀ a a', T a a' → r = .ok a → r' = .ok a' → Agree S (f a) s (f' a') t) :
  Agree S (lift r >>= f) s (lift r' >>= f') t
  := by
  cases h with
  | error e =>
    constructor
    · rfl
    · intro b s' t' hp
      obtain ⟨a, _, hlift, -⟩ := gives_bind_iff.mp hp
      cases (gives_lift_iff.mp hlift).1
  | @ok a a' hT =>
    constructor
    · rw [outcome_bind, outcome_bind]
      apply (hf a a' hT rfl rfl).outcome
    · intro b s' t' hp hq
      obtain ⟨_, _, hlift, hp⟩ := gives_bind_iff.mp hp
      obtain ⟨_, _, hlift', hq⟩ := gives_bind_iff.mp hq
      obtain ⟨ha, rfl⟩ := gives_lift_iff.mp hlift
      obtain ⟨ha', rfl⟩ := gives_lift_iff.mp hlift'
      cases ha
      cases ha'
      apply (hf a a' hT rfl rfl).states b s' t' hp hq

/-- Runs that start by operations that succeed. -/
theorem agree_ok_bind {a a' : α} {f f' : α → Phase σ β} (h : Agree S (f a) s (f' a') t) :
  Agree S (lift (.ok a) >>= f) s (lift (.ok a') >>= f') t
  := by
  apply agree_lift_bind (T := fun x x' => x = a ∧ x' = a') (Related.ok ⟨rfl, rfl⟩)
  rintro _ _ ⟨rfl, rfl⟩ - -
  apply h

/-- Runs that start by an operation with one outcome. -/
theorem agree_lift_bind_of_eq {r r' : Outcome α} {f f' : α → Phase σ β} (h : r = r')
    (hf : ∀ a, r = .ok a → Agree S (f a) s (f' a) t) :
  Agree S (lift r >>= f) s (lift r' >>= f') t
  := by
  subst h
  cases r with
  | ok a => apply agree_ok_bind (hf a rfl)
  | error e =>
    apply agree_lift_bind (T := Eq) (Related.error e)
    rintro a _ - ha
    cases ha

/-- Runs that are stopped at once. -/
theorem agree_stop (e : Stop) : Agree S (lift (.error e : Outcome α)) s (lift (.error e)) t := by
  constructor
  · rfl
  · intro a s' t' hp
    cases (gives_lift_iff.mp hp).1

/-- Runs of a phase on a part of the state. -/
theorem agree_focus {τ : Type} {S : τ → τ → Prop} {view view' : σ → τ} {update update' : σ → τ → σ}
    {p q : Phase τ α} (h : Agree S p (view s) q (view' t)) :
  Agree (fun s' t' => ∃ x y, S x y ∧ s' = update s x ∧ t' = update' t y)
    (focus view update p) s (focus view' update' q) t
  := by
  constructor
  · apply h.outcome
  · intro a s' t' hp hq
    obtain ⟨x, hx, rfl⟩ := gives_focus_iff.mp hp
    obtain ⟨y, hy, rfl⟩ := gives_focus_iff.mp hq
    exact ⟨x, y, h.states a x y hx hy, rfl, rfl⟩

/-! ### Loops -/

/-- What the phase of each item makes the same in both states, and no other makes differ, is the
same after all, where an invariant helps. -/
theorem agree_each {p : ι → Phase σ Unit} {is : List ι} {R : σ → σ → Prop} {Q : ι → σ → σ → Prop}
    (h : R s t)
    (hstep : ∀ i ∈ is, ∀ s t, R s t → Agree (fun s' t' => R s' t' ∧ Q i s' t'
      ∧ ∀ j, Q j s t → Q j s' t') (p i) s (p i) t) :
  Agree (fun s' t' => R s' t' ∧ (∀ i ∈ is, Q i s' t') ∧ ∀ j, Q j s t → Q j s' t')
    (each p is) s (each p is) t
  := by
  induction is generalizing s t with
  | nil =>
    apply agree_pure
    exact ⟨h, by simp, fun _ hj => hj⟩
  | cons i is ih =>
    apply (hstep i List.mem_cons_self s t h).bind
    rintro _ s' t' ⟨hR, hi, hkeep⟩
    apply (ih hR fun j hj => hstep j (List.mem_cons_of_mem i hj)).imp
    rintro s'' t'' ⟨hR', his, hkeep'⟩
    refine ⟨hR', ?_, fun j hj => hkeep' j (hkeep j hj)⟩
    rw [List.forall_mem_cons]
    exact ⟨hkeep' i hi, his⟩

end Phase

end RoutingFabric
