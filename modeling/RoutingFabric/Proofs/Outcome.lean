import Mathlib.Data.List.Forall2
import RoutingFabric.Outcome

/-!
# Taking outcomes apart

An operation made of steps succeeds exactly when each step does, and is stopped by the first step
that is. A loop over a list succeeds exactly when it does for each item. An operation that counts may
go on from what has been counted before it, which then is added to what it counts by itself.
-/

namespace RoutingFabric

variable {α β : Type}

/-! ### Steps -/

/-- Two steps succeed exactly when the first does and the second does on its value. -/
@[simp] theorem bind_eq_ok_iff {x : Outcome α} {f : α → Outcome β} {b : β} :
  (x >>= f) = .ok b ↔ ∃ a, x = .ok a ∧ f a = .ok b
  := by
  cases x <;> simp [bind, Except.bind]

/-- Where the first step gives nothing, both steps have to succeed. -/
theorem unit_bind_eq_ok_iff {x : Outcome Unit} {f : Unit → Outcome β} {b : β} :
  (x >>= f) = .ok b ↔ x = .ok () ∧ f () = .ok b
  := by
  rw [bind_eq_ok_iff]
  constructor
  · rintro ⟨_, hx, hf⟩
    exact ⟨hx, hf⟩
  · rintro ⟨hx, hf⟩
    use ()

/-- Two steps are stopped when the first is, or the second is on the value of the first. -/
theorem bind_eq_error_iff {x : Outcome α} {f : α → Outcome β} {e : Stop} :
  (x >>= f) = .error e ↔ x = .error e ∨ ∃ a, x = .ok a ∧ f a = .error e
  := by
  cases x <;> simp [bind, Except.bind]

/-- A step that succeeds hands on its value. -/
@[simp] theorem ok_bind (a : α) (f : α → Outcome β) : (Except.ok a >>= f) = f a := rfl

/-- Nothing follows a step that is stopped. -/
@[simp] theorem error_bind (e : Stop) (f : α → Outcome β) :
  ((Except.error e : Outcome α) >>= f) = .error e
  := rfl

/-- Steps after the same step are the same if they are on the value it gives. -/
theorem bind_congr_of_ok {x : Outcome α} {f h : α → Outcome β} (heq : ∀ a, x = .ok a → f a = h a) :
  (x >>= f) = (x >>= h)
  := by
  cases x with
  | error e => rfl
  | ok a => apply heq a rfl

/-- A value is a success. -/
@[simp] theorem pure_eq_ok_iff {a b : α} : (pure a : Outcome α) = .ok b ↔ a = b := by
  simp [pure, Except.pure]

/-- A value is no stop. -/
@[simp] theorem pure_ne_error {a : α} {e : Stop} : (pure a : Outcome α) ≠ .error e := by
  simp [pure, Except.pure]

/-- A problem is no success. -/
@[simp] theorem fail_ne_ok {p : Problem} {a : α} : (fail p : Outcome α) ≠ .ok a := by
  simp [fail]

/-- A fault is no success. -/
@[simp] theorem fault_ne_ok {f : Fault} {a : α} : (fault f : Outcome α) ≠ .ok a := by
  simp [fault]

/-- The problem of a failure is the one it names. -/
@[simp] theorem fail_eq_problem_iff {p q : Problem} :
  (fail p : Outcome α) = .error (.problem q) ↔ p = q
  := by
  simp [fail]

/-- A fault is no problem. -/
@[simp] theorem fault_ne_problem {f : Fault} {q : Problem} :
  (fault f : Outcome α) ≠ .error (.problem q)
  := by
  simp [fault]

/-- A number that fits a machine word stays what it is. -/
theorem eq_of_word {k m : Nat} (h : word k = .ok m) : m = k := by
  rw [word] at h
  split at h
  · cases h
    rfl
  · cases fault_ne_ok h

/-! ### Operations without problems -/

/-- The result does not stop at a problem. -/
def Problemless (r : Outcome α) : Prop := ∀ p, r ≠ .error (.problem p)

/-- A value is no problem. -/
theorem problemless_pure (a : α) : Problemless (pure a : Outcome α) := by
  intro p
  simp

/-- A fault is no problem. -/
theorem problemless_fault (f : Fault) : Problemless (fault f : Outcome α) := by
  intro p
  simp

/-- Two steps without problems have none together. -/
theorem Problemless.bind {x : Outcome α} {f : α → Outcome β}
    (hx : Problemless x) (hf : ∀ a, Problemless (f a)) :
  Problemless (x >>= f)
  := by
  intro p h
  rcases bind_eq_error_iff.mp h with h | ⟨a, -, h⟩
  · apply hx p h
  · apply hf a p h

/-- An operation without problems is stopped by faults only. -/
theorem Problemless.exists_fault {x : Outcome α} (hx : Problemless x) {e : Stop}
    (h : x = .error e) :
  ∃ f, e = .fault f
  := by
  cases e with
  | problem p => cases hx p h
  | fault f => use f

/-- A number that has to fit a machine word has no problems. -/
theorem problemless_word (n : Nat) : Problemless (word n) := by
  rw [word]
  split
  · apply problemless_pure
  · apply problemless_fault

/-- Looking up an entry has no problems. -/
theorem problemless_entry (xs : Array α) (i : Nat) : Problemless (entry xs i) := by
  rw [entry]
  split
  · apply problemless_pure
  · apply problemless_fault

/-- A map over a list whose steps have no problems has none. -/
theorem problemless_mapM {xs : List α} {f : α → Outcome β} (hf : ∀ a, Problemless (f a)) :
  Problemless (xs.mapM f)
  := by
  induction xs with
  | nil => apply problemless_pure
  | cons x xs ih =>
    rw [List.mapM_cons]
    apply (hf x).bind
    intro y
    apply ih.bind
    intro ys
    apply problemless_pure

/-- A selective map over a list whose steps have no problems has none. -/
theorem problemless_filterMapM {xs : List α} {f : α → Outcome (Option β)}
    (hf : ∀ a, Problemless (f a)) :
  Problemless (xs.filterMapM f)
  := by
  induction xs with
  | nil => apply problemless_pure
  | cons x xs ih =>
    rw [List.filterMapM_cons]
    apply (hf x).bind
    rintro (_ | y)
    · apply ih
    · apply ih.bind
      intro ys
      apply problemless_pure

/-- The result does not stop at a problem of a sort. -/
def Avoids (P : Problem → Prop) (r : Outcome α) : Prop := ∀ p, P p → r ≠ .error (.problem p)

/-- What has no problems avoids all of them. -/
theorem Problemless.avoids {P : Problem → Prop} {r : Outcome α} (h : Problemless r) :
  Avoids P r
  := by
  intro p _
  apply h p

/-- A value is no problem of any sort. -/
theorem avoids_pure {P : Problem → Prop} (a : α) : Avoids P (pure a : Outcome α) :=
  (problemless_pure a).avoids

/-- A fault is no problem of any sort. -/
theorem avoids_fault {P : Problem → Prop} (f : Fault) : Avoids P (fault f : Outcome α) :=
  (problemless_fault f).avoids

/-- A problem of another sort is avoided. -/
theorem avoids_fail {P : Problem → Prop} {q : Problem} (h : ¬ P q) :
  Avoids P (fail q : Outcome α)
  := by
  intro p hp heq
  apply h
  rw [fail_eq_problem_iff.mp heq]
  apply hp

/-- A stop is the same for results of any type. -/
theorem Avoids.error {P : Problem → Prop} {e : Stop} (h : Avoids P (.error e : Outcome α)) :
  Avoids P (.error e : Outcome β)
  := by
  rintro p hp heq
  cases heq
  apply h p hp rfl

/-- Two steps avoid what the first does, and the second on the value of the first. -/
theorem Avoids.bind {P : Problem → Prop} {x : Outcome α} {f : α → Outcome β} (hx : Avoids P x)
    (hf : ∀ a, x = .ok a → Avoids P (f a)) :
  Avoids P (x >>= f)
  := by
  intro p hp h
  rcases bind_eq_error_iff.mp h with h | ⟨a, ha, h⟩
  · apply hx p hp h
  · apply hf a ha p hp h

/-! ### Tables -/

/-- Changing an entry succeeds exactly inside of the table. -/
theorem alter_eq_ok_iff {xs ys : Array α} {i : Nat} {f : α → α} :
  alter xs i f = .ok ys ↔ i < xs.size ∧ ys = xs.modify i f
  := by
  rw [alter]
  split
  · rename_i hi
    simp only [Except.ok.injEq, hi, true_and]
    apply eq_comm
  · rename_i hi
    simp [hi]

/-- Changing an entry has no problems. -/
theorem problemless_alter (xs : Array α) (i : Nat) (f : α → α) : Problemless (alter xs i f) := by
  rw [alter]
  split
  · apply problemless_pure
  · apply problemless_fault

/-! ### Loops -/

/-- A map over a list succeeds exactly when it does for each item. -/
theorem mapM_eq_ok_iff {xs : List α} {ys : List β} {f : α → Outcome β} :
  xs.mapM f = .ok ys ↔ List.Forall₂ (fun x y => f x = .ok y) xs ys
  := by
  induction xs generalizing ys with
  | nil => simp [pure, Except.pure, eq_comm]
  | cons x xs ih =>
    simp only [List.mapM_cons, bind_eq_ok_iff, pure_eq_ok_iff, ih, List.forall₂_cons_left_iff]
    grind

/-- What belongs to an item of a list stands at the place of the item. -/
theorem exists_getElem?_of_forall₂ {R : α → β → Prop} {xs : List α} {ys : List β} {i : Nat} {x : α}
    (h : List.Forall₂ R xs ys) (hx : xs[i]? = some x) :
  ∃ y, ys[i]? = some y ∧ R x y
  := by
  induction h generalizing i with
  | nil => cases hx
  | @cons x' y' xs ys hxy _ ih =>
    cases i with
    | zero =>
      cases hx
      exact ⟨y', rfl, hxy⟩
    | succ i => apply ih hx

/-- Lists whose items belong together are mapped to the same list if these are. -/
theorem map_eq_of_forall₂ {γ : Type} {R : α → β → Prop} {xs : List α} {ys : List β} {f : α → γ}
    {k : β → γ} (h : List.Forall₂ R xs ys) (heq : ∀ x y, R x y → k y = f x) :
  ys.map k = xs.map f
  := by
  induction h with
  | nil => rfl
  | cons hxy _ ih => rw [List.map_cons, List.map_cons, heq _ _ hxy, ih]

/-- Maps over a list are the same if their steps are. -/
theorem mapM_congr {xs : List α} {f g : α → Outcome β} (h : ∀ x ∈ xs, f x = g x) :
  xs.mapM f = xs.mapM g
  := by
  induction xs with
  | nil => rfl
  | cons x xs ih =>
    obtain ⟨hx, hxs⟩ := List.forall_mem_cons.mp h
    rw [List.mapM_cons, List.mapM_cons, hx, ih hxs]

/-- A map over a list is stopped by one of its steps. -/
theorem exists_of_mapM_eq_error {xs : List α} {f : α → Outcome β} {e : Stop}
    (h : xs.mapM f = .error e) :
  ∃ x ∈ xs, f x = .error e
  := by
  induction xs with
  | nil => cases pure_ne_error h
  | cons x xs ih =>
    rw [List.mapM_cons] at h
    rcases bind_eq_error_iff.mp h with h | ⟨y, -, h⟩
    · use x, List.mem_cons_self
    rcases bind_eq_error_iff.mp h with h | ⟨ys, -, h⟩
    · obtain ⟨x', hx', he⟩ := ih h
      use x', List.mem_cons_of_mem x hx'
    · cases pure_ne_error h

/-- A map over lists that are put one after another is one over each of them. -/
theorem mapM_flatMap {ι : Type} (is : List ι) (g : ι → List α) (f : α → Outcome β) :
  (is.flatMap g).mapM f = (do return (← is.mapM fun i => (g i).mapM f).flatten)
  := by
  induction is with
  | nil => rfl
  | cons i is ih =>
    rw [List.flatMap_cons, List.mapM_append, ih, List.mapM_cons]
    simp only [bind_assoc, pure_bind, List.flatten_cons]

/-- A loop over a list succeeds exactly when it does for each item. -/
theorem forM_eq_ok_iff {xs : List α} {f : α → Outcome Unit} :
  xs.forM f = .ok () ↔ ∀ x ∈ xs, f x = .ok ()
  := by
  induction xs with
  | nil =>
    constructor
    · simp
    · intro _
      rfl
  | cons x xs ih =>
    change (f x >>= fun _ => xs.forM f) = .ok () ↔ _
    rw [unit_bind_eq_ok_iff, List.forall_mem_cons, ih]

/-- A map over a list succeeds if it does for each item, and what holds of each value it gives
holds of all. -/
theorem exists_mapM_eq_ok {xs : List α} {f : α → Outcome β} {P : β → Prop}
    (h : ∀ x ∈ xs, ∃ y, f x = .ok y ∧ P y) :
  ∃ ys, xs.mapM f = .ok ys ∧ ∀ y ∈ ys, P y
  := by
  induction xs with
  | nil =>
    use []
    simp [pure, Except.pure]
  | cons x xs ih =>
    obtain ⟨y, hy, hP⟩ := h x List.mem_cons_self
    obtain ⟨ys, hys, hPs⟩ := ih fun x hx => h x (List.mem_cons_of_mem _ hx)
    use y :: ys
    constructor
    · rw [List.mapM_cons, hy, ok_bind, hys, ok_bind]
      rfl
    · apply List.forall_mem_cons.mpr ⟨hP, hPs⟩

/-- A map over a list succeeds only if it does for each item. -/
theorem exists_of_mapM_eq_ok {xs : List α} {ys : List β} {f : α → Outcome β}
    (h : xs.mapM f = .ok ys) :
  ∀ x ∈ xs, ∃ y, f x = .ok y
  := by
  have hall := mapM_eq_ok_iff.mp h
  clear h
  induction hall with
  | nil => simp
  | cons hx _ ih => apply List.forall_mem_cons.mpr ⟨⟨_, hx⟩, ih⟩

/-- A map over a list keeps its length. -/
theorem length_of_mapM_eq_ok {xs : List α} {ys : List β} {f : α → Outcome β}
    (h : xs.mapM f = .ok ys) :
  ys.length = xs.length
  := (mapM_eq_ok_iff.mp h).length_eq.symm

/-- A value of a map over a list comes from an item. -/
theorem exists_of_mem_mapM {xs : List α} {ys : List β} {f : α → Outcome β} {y : β}
    (h : xs.mapM f = .ok ys) (hy : y ∈ ys) :
  ∃ x ∈ xs, f x = .ok y
  := by
  have hall := mapM_eq_ok_iff.mp h
  clear h
  induction hall with
  | nil => cases hy
  | @cons x y' _ _ hx _ ih =>
    rcases List.mem_cons.mp hy with rfl | hy
    · exact ⟨x, List.mem_cons_self, hx⟩
    · obtain ⟨z, hz, hzy⟩ := ih hy
      exact ⟨z, List.mem_cons_of_mem x hz, hzy⟩

/-- A selective map over a list succeeds if it does for each item. -/
theorem filterMapM_eq_ok {xs : List α} {f : α → Outcome (Option β)} {g : α → Option β}
    (h : ∀ x ∈ xs, f x = .ok (g x)) :
  xs.filterMapM f = .ok (xs.filterMap g)
  := by
  induction xs with
  | nil => rfl
  | cons x xs ih =>
    rw [List.filterMapM_cons, h x List.mem_cons_self, ok_bind, List.filterMap_cons,
      ih fun y hy => h y (List.mem_cons_of_mem x hy)]
    cases g x <;> rfl

/-- A value of a selective map over a list comes from an item. -/
theorem exists_of_mem_filterMapM {xs : List α} {ys : List β} {f : α → Outcome (Option β)} {y : β}
    (h : xs.filterMapM f = .ok ys) (hy : y ∈ ys) :
  ∃ x ∈ xs, f x = .ok (some y)
  := by
  induction xs generalizing ys with
  | nil =>
    cases pure_eq_ok_iff.mp h
    cases hy
  | cons x xs ih =>
    rw [List.filterMapM_cons] at h
    obtain ⟨y', hx, h⟩ := bind_eq_ok_iff.mp h
    cases y' with
    | none =>
      obtain ⟨x', hx', hfx'⟩ := ih h hy
      exact ⟨x', List.mem_cons_of_mem x hx', hfx'⟩
    | some y' =>
      obtain ⟨rest, hrest, h⟩ := bind_eq_ok_iff.mp h
      cases pure_eq_ok_iff.mp h
      rcases List.mem_cons.mp hy with rfl | hy
      · exact ⟨x, List.mem_cons_self, hx⟩
      · obtain ⟨x', hx', hfx'⟩ := ih hrest hy
        exact ⟨x', List.mem_cons_of_mem x hx', hfx'⟩

/-- A selective map over a list succeeds only if it does for each item. -/
theorem exists_of_filterMapM_eq_ok {xs : List α} {ys : List β} {f : α → Outcome (Option β)}
    (h : xs.filterMapM f = .ok ys) :
  ∀ x ∈ xs, ∃ y, f x = .ok y
  := by
  induction xs generalizing ys with
  | nil => simp
  | cons x xs ih =>
    rw [List.filterMapM_cons] at h
    obtain ⟨y, hx, h⟩ := bind_eq_ok_iff.mp h
    obtain ⟨rest, hrest⟩ : ∃ rest, xs.filterMapM f = .ok rest := by
      cases y with
      | none => use ys, h
      | some y =>
        obtain ⟨rest, hrest, -⟩ := bind_eq_ok_iff.mp h
        use rest
    apply List.forall_mem_cons.mpr ⟨⟨y, hx⟩, ih hrest⟩

/-- A selective map over a list does not make it longer. -/
theorem length_le_of_filterMapM_eq_ok {xs : List α} {ys : List β} {f : α → Outcome (Option β)}
    (h : xs.filterMapM f = .ok ys) :
  ys.length ≤ xs.length
  := by
  induction xs generalizing ys with
  | nil =>
    cases pure_eq_ok_iff.mp h
    apply Nat.le_refl
  | cons x xs ih =>
    rw [List.filterMapM_cons] at h
    obtain ⟨y, -, h⟩ := bind_eq_ok_iff.mp h
    cases y with
    | none =>
      have := ih h
      rw [List.length_cons]
      omega
    | some y =>
      obtain ⟨rest, hrest, h⟩ := bind_eq_ok_iff.mp h
      cases pure_eq_ok_iff.mp h
      have := ih hrest
      rw [List.length_cons, List.length_cons]
      omega

/-! ### Counts -/

section Counts

variable {σ τ : Type} {n k : Nat}

/-- What the operation gives, where its count goes on from another one. -/
def countedFrom (n : Nat) (r : Outcome (Nat × σ)) : Outcome (Nat × σ) := do
  let (count, s) ← r
  return (n + count, s)

/-- Going on from zero is counting from zero. -/
theorem countedFrom_zero (r : Outcome (Nat × σ)) : countedFrom 0 r = r := by
  cases r with
  | error e => rfl
  | ok x => simp [countedFrom, pure, Except.pure]

/-- Counts that go on twice are added up. -/
theorem countedFrom_countedFrom (r : Outcome (Nat × σ)) :
  countedFrom n (countedFrom k r) = countedFrom (n + k) r
  := by
  cases r with
  | error e => rfl
  | ok x => simp only [countedFrom, ok_bind, pure_bind, Nat.add_assoc]

/-- A step that does not count goes before one that goes on from a count. -/
theorem countedFrom_after {x : Outcome α} {f h : α → Outcome (Nat × σ)}
    (hf : ∀ a, x = .ok a → h a = countedFrom n (f a)) :
  (x >>= h) = countedFrom n (x >>= f)
  := by
  cases x with
  | error e => rfl
  | ok a => apply hf a rfl

/-- Two steps go on from a count if the first does, and the second does from where that leads. -/
theorem countedFrom_bind {x y : Outcome (Nat × σ)} {f h : Nat × σ → Outcome (Nat × τ)}
    (hx : y = countedFrom n x)
    (hf : ∀ here s, x = .ok (here, s) → h (n + here, s) = countedFrom n (f (here, s))) :
  (y >>= h) = countedFrom n (x >>= f)
  := by
  cases x with
  | error e =>
    rw [hx]
    rfl
  | ok a =>
    rw [hx]
    apply hf a.1 a.2 rfl

end Counts

end RoutingFabric
