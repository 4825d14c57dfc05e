import RoutingFabric.Phase
import RoutingFabric.Proofs.Outcome

/-!
# Taking phases apart

What a phase gives is determined by what its parts give, each from the state the one before it
left.
-/

namespace RoutingFabric.Phase

variable {σ τ α β ι : Type}

/-- From a state the phase succeeds, with a value and another state. -/
def Gives (p : Phase σ α) (s : σ) (a : α) (s' : σ) : Prop :=
  (p.run s).outcome = .ok a ∧ (p.run s).state = s'

/-- The outcome of two phases is that of the second after the first. -/
theorem outcome_bind (p : Phase σ α) (f : α → Phase σ β) (s : σ) :
  ((p >>= f).run s).outcome
    = ((p.run s).outcome >>= fun a => ((f a).run (p.run s).state).outcome)
  := by
  cases hp : p.run s with
  | mk outcome s' events =>
    cases outcome with
    | ok a =>
      rw [run_bind_of_ok hp]
      rfl
    | error e =>
      rw [run_bind_of_error hp]
      rfl

/-- A phase that succeeds from a state does so with one value, and leads to one state. -/
theorem Gives.unique {p : Phase σ α} {s s' s'' : σ} {a b : α} (h : p.Gives s a s')
    (h' : p.Gives s b s'') :
  a = b ∧ s' = s''
  := ⟨Except.ok.inj (h.1.symm.trans h'.1), h.2.symm.trans h'.2⟩

/-- After a phase that succeeds, what comes of both is what comes of the second from there. -/
theorem Gives.run_bind {p : Phase σ α} {f : α → Phase σ β} {s s' : σ} {a : α}
    (h : p.Gives s a s') :
  ((p >>= f).run s).outcome = ((f a).run s').outcome
    ∧ ((p >>= f).run s).state = ((f a).run s').state
  := by
  cases hp : p.run s with
  | mk outcome last events =>
    obtain ⟨houtcome, hstate⟩ := h
    rw [hp] at houtcome hstate
    subst houtcome hstate
    rw [run_bind_of_ok hp]
    exact ⟨rfl, rfl⟩

/-- Two phases succeed exactly when the second does from where the first leads. -/
@[simp] theorem gives_bind_iff {p : Phase σ α} {f : α → Phase σ β} {s s'' : σ} {b : β} :
  (p >>= f).Gives s b s'' ↔ ∃ a s', p.Gives s a s' ∧ (f a).Gives s' b s''
  := by
  cases hp : p.run s with
  | mk outcome s' events =>
    cases outcome with
    | ok a =>
      rw [Gives, run_bind_of_ok hp]
      simp [Gives, hp]
    | error e =>
      rw [Gives, run_bind_of_error hp]
      simp [Gives, hp]

/-- A value leaves the state as it is. -/
@[simp] theorem gives_pure_iff {a b : α} {s s' : σ} :
  (pure a : Phase σ α).Gives s b s' ↔ a = b ∧ s = s'
  := by
  simp [Gives]

/-- The state is handed out. -/
@[simp] theorem gives_state_iff {s s' t : σ} : (state : Phase σ σ).Gives s t s' ↔ s = t ∧ s = s' := by
  simp [Gives]

/-- The state is replaced. -/
@[simp] theorem gives_put_iff {s s' t : σ} {u : Unit} : (put t).Gives s u s' ↔ t = s' := by
  simp [Gives]

/-- A report leaves the state as it is. -/
@[simp] theorem gives_report_iff {e : Event} {s s' : σ} {u : Unit} :
  (report e : Phase σ Unit).Gives s u s' ↔ s = s'
  := by
  simp [Gives]

/-- A lifted operation has to succeed, and leaves the state as it is. -/
@[simp] theorem gives_lift_iff {r : Outcome α} {a : α} {s s' : σ} :
  (lift r).Gives s a s' ↔ r = .ok a ∧ s = s'
  := by
  simp [Gives]

/-- A phase on a part of the state changes that part. -/
@[simp] theorem gives_focus_iff {view : σ → τ} {update : σ → τ → σ} {p : Phase τ α} {s s' : σ}
    {a : α} :
  (focus view update p).Gives s a s' ↔ ∃ t, p.Gives (view s) a t ∧ s' = update s t
  := by
  simp only [Gives, run, focus]
  constructor
  · rintro ⟨h, rfl⟩
    exact ⟨_, ⟨h, rfl⟩, rfl⟩
  · rintro ⟨t, ⟨h, rfl⟩, rfl⟩
    exact ⟨h, rfl⟩

/-- What holds between the states that each phase of a list leads from and to, holds after all. -/
theorem each_induction {p : ι → Phase σ Unit} {is : List ι} {s s' : σ} {I : σ → Prop}
    (h : (each p is).Gives s () s') (hs : I s)
    (hstep : ∀ i ∈ is, ∀ s s', I s → (p i).Gives s () s' → I s') :
  I s'
  := by
  induction is generalizing s with
  | nil =>
    obtain ⟨-, rfl⟩ := gives_pure_iff.mp h
    apply hs
  | cons i is ih =>
    obtain ⟨_, t, hi, hrest⟩ := gives_bind_iff.mp h
    apply ih hrest
    · apply hstep i List.mem_cons_self s t hs hi
    · intro j hj
      apply hstep j (List.mem_cons_of_mem i hj)

/-- What the phase of each item of a list brings about and no other undoes, holds after all, where
an invariant helps. -/
theorem each_establishes_of_invariant {p : ι → Phase σ Unit} {is : List ι} {s s' : σ}
    {I : σ → Prop} {Q : ι → σ → Prop} (h : (each p is).Gives s () s') (hs : I s)
    (hstep : ∀ i ∈ is, ∀ s s', I s → (p i).Gives s () s' →
      I s' ∧ Q i s' ∧ ∀ j, Q j s → Q j s') :
  I s' ∧ ∀ i ∈ is, Q i s'
  := by
  have hkeep : ∀ js ⊆ is, ∀ s s', I s → (each p js).Gives s () s' →
      I s' ∧ ∀ j, Q j s → Q j s' := by
    intro js hjs s s' hs h
    apply each_induction h (I := fun t => I t ∧ ∀ j, Q j s → Q j t) ⟨hs, fun _ hj => hj⟩
    rintro k hk t t' ⟨ht, hQ⟩ hp
    obtain ⟨ht', -, hQ'⟩ := hstep k (hjs hk) t t' ht hp
    exact ⟨ht', fun j hj => hQ' j (hQ j hj)⟩
  induction is generalizing s with
  | nil =>
    obtain ⟨-, rfl⟩ := gives_pure_iff.mp h
    refine ⟨hs, ?_⟩
    intro i hi
    cases hi
  | cons i is ih =>
    obtain ⟨_, t, hi, hrest⟩ := gives_bind_iff.mp h
    obtain ⟨ht, hQ, -⟩ := hstep i List.mem_cons_self s t hs hi
    obtain ⟨hs', hrests⟩ := ih hrest ht (fun k hk => hstep k (List.mem_cons_of_mem i hk))
      fun js hjs => hkeep js (List.Subset.trans hjs (List.subset_cons_self _ _))
    refine ⟨hs', ?_⟩
    intro j hj
    rcases List.mem_cons.mp hj with rfl | hj
    · apply (hkeep is (List.subset_cons_self _ _) t s' ht hrest).2 j hQ
    · apply hrests j hj

/-- What the phase of each item of a list brings about and no other undoes, holds after all. -/
theorem each_establishes {p : ι → Phase σ Unit} {is : List ι} {s s' : σ} {Q : ι → σ → Prop}
    (h : (each p is).Gives s () s')
    (hstep : ∀ i ∈ is, ∀ s s', (p i).Gives s () s' → Q i s' ∧ ∀ j, Q j s → Q j s') :
  ∀ i ∈ is, Q i s'
  := by
  have hall := each_establishes_of_invariant (I := fun _ => True) (Q := Q) h trivial (by
    intro i hi s s' _ hp
    exact ⟨trivial, hstep i hi s s' hp⟩)
  exact hall.2

/-- Phases, one for each item of a list, succeed if each does wherever an invariant holds. -/
theorem exists_each {p : ι → Phase σ Unit} {is : List ι} {s : σ} {I : σ → Prop} (hs : I s)
    (hp : ∀ i ∈ is, ∀ s, I s → ∃ s', (p i).Gives s () s' ∧ I s') :
  ∃ s', (each p is).Gives s () s'
  := by
  induction is generalizing s with
  | nil => exact ⟨s, gives_pure_iff.mpr ⟨rfl, rfl⟩⟩
  | cons i is ih =>
    obtain ⟨t, ht, hI⟩ := hp i List.mem_cons_self s hs
    obtain ⟨s', hs'⟩ := ih hI fun j hj => hp j (List.mem_cons_of_mem i hj)
    exact ⟨s', gives_bind_iff.mpr ⟨(), t, ht, hs'⟩⟩

/-! ### Phases that run alike -/

/-- Two phases run alike after phases that do, if they do from where these lead. -/
theorem run_bind_congr {p q : Phase σ α} {f h : α → Phase σ β} {s : σ} (hp : p.run s = q.run s)
    (hf : ∀ a s', q.Gives s a s' → (f a).run s' = (h a).run s') :
  (p >>= f).run s = (q >>= h).run s
  := by
  cases hq : q.run s with
  | mk outcome s' events =>
    rw [hq] at hp
    cases outcome with
    | error e => rw [run_bind_of_error hp, run_bind_of_error hq]
    | ok a =>
      have hgives : q.Gives s a s' := by
        rw [Gives, hq]
        exact ⟨rfl, rfl⟩
      rw [run_bind_of_ok hp, run_bind_of_ok hq, hf a s' hgives]

/-- Phases that start by asking for the state run alike if they do with it. -/
theorem run_state_bind_congr {f h : σ → Phase σ β} {s : σ} (hf : (f s).run s = (h s).run s) :
  (state >>= f).run s = (state >>= h).run s
  := by
  apply run_bind_congr rfl
  intro a s' hstate
  obtain ⟨rfl, rfl⟩ := gives_state_iff.mp hstate
  apply hf

/-- Phases that start by an operation run alike if they do on its value. -/
theorem run_lift_bind_congr {r : Outcome α} {f h : α → Phase σ β} {s : σ}
    (hf : ∀ a, r = .ok a → (f a).run s = (h a).run s) :
  (lift r >>= f).run s = (lift r >>= h).run s
  := by
  apply run_bind_congr rfl
  intro a s' hlift
  obtain ⟨ha, rfl⟩ := gives_lift_iff.mp hlift
  apply hf a ha

/-- Phases that start by replacing the state run alike if they do from the new one. -/
theorem run_put_bind_congr {f h : Unit → Phase σ β} {s s' : σ}
    (hf : (f ()).run s' = (h ()).run s') :
  (put s' >>= f).run s = (put s' >>= h).run s
  := by
  apply run_bind_congr rfl
  intro _ s'' hput
  obtain rfl := gives_put_iff.mp hput
  apply hf

/-- A number that fits a machine word is handed on. -/
theorem run_word_bind {f : Nat → Phase σ α} {s : σ} (hn : n < wordLimit) :
  (lift (word n) >>= f).run s = (f n).run s
  := by
  rw [word_of_lt hn]
  rfl

/-- Phases on a part of the state run alike if they do on that part. -/
theorem run_focus_congr {view : σ → τ} {update : σ → τ → σ} {p q : Phase τ α} {s : σ}
    (h : p.run (view s) = q.run (view s)) :
  (focus view update p).run s = (focus view update q).run s
  := by
  rw [run] at h
  simp only [run, focus]
  rw [h]
  rfl

/-- Phases, one for each item of a list, run alike if each two do where an invariant holds. -/
theorem run_each_congr {p q : ι → Phase σ Unit} {is : List ι} {s : σ} {I : σ → Prop} (hs : I s)
    (hp : ∀ i ∈ is, ∀ s, I s →
      (p i).run s = (q i).run s ∧ ∀ s', (q i).Gives s () s' → I s') :
  (each p is).run s = (each q is).run s
  := by
  induction is generalizing s with
  | nil => rfl
  | cons i is ih =>
    obtain ⟨hi, hkeep⟩ := hp i List.mem_cons_self s hs
    apply run_bind_congr hi
    intro _ s' h
    apply ih (hkeep s' h)
    intro j hj
    apply hp j (List.mem_cons_of_mem i hj)

end RoutingFabric.Phase
