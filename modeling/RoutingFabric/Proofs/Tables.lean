import Mathlib.Data.List.Nodup
import Mathlib.Logic.Relation

/-!
# Tables and chains

Tables are compared by what is seen of their entries. A list of which each entry leads to the next
holds none twice, unless something leads back to itself.
-/

namespace RoutingFabric

variable {α β γ : Type} {view : α → β} {xs ys : Array α} {x x' : α} {i : Nat}

/-! ### Tables -/

/-- Where tables are seen the same, they have entries that are. -/
theorem exists_getElem?_of_map_eq (h : xs.map view = ys.map view) (hx : xs[i]? = some x) :
  ∃ y, ys[i]? = some y ∧ view x = view y
  := by
  have hget := congrArg (·[i]?) h
  rw [Array.getElem?_map, Array.getElem?_map, hx, Option.map_some, eq_comm] at hget
  obtain ⟨y, hy, heq⟩ := Option.map_eq_some_iff.mp hget
  exact ⟨y, hy, heq.symm⟩

/-- Tables that are seen the same have entries at the same places. -/
theorem getElem?_eq_none_of_map_eq (h : xs.map view = ys.map view) (hx : xs[i]? = none) :
  ys[i]? = none
  := by
  have hget := congrArg (·[i]?) h
  rw [Array.getElem?_map, Array.getElem?_map, hx, Option.map_none, eq_comm] at hget
  apply Option.map_eq_none_iff.mp hget

/-- Tables are equal if their entries are seen the same in two ways that leave nothing unseen. -/
theorem eq_of_map_eq {view' : α → γ} (h : xs.map view = ys.map view)
    (h' : xs.map view' = ys.map view') (hinj : ∀ x y, view x = view y → view' x = view' y → x = y) :
  xs = ys
  := by
  apply Array.ext_getElem?
  intro i
  cases hx : xs[i]? with
  | none => rw [getElem?_eq_none_of_map_eq h hx]
  | some x =>
    obtain ⟨y, hy, heq⟩ := exists_getElem?_of_map_eq h hx
    obtain ⟨z, hz, heq'⟩ := exists_getElem?_of_map_eq h' hx
    rw [hy] at hz
    cases hz
    rw [hy, hinj x y heq heq']

/-- Tables that are seen the same in one way are so in another one if their entries are. -/
theorem map_eq_of_map_eq {view' : α → γ} (h : xs.map view = ys.map view)
    (hentries : ∀ (i : Nat) x y, xs[i]? = some x → ys[i]? = some y → view x = view y →
      view' x = view' y) :
  xs.map view' = ys.map view'
  := by
  apply Array.ext_getElem?
  intro i
  rw [Array.getElem?_map, Array.getElem?_map]
  cases hx : xs[i]? with
  | none => rw [getElem?_eq_none_of_map_eq h hx]
  | some x =>
    obtain ⟨y, hy, heq⟩ := exists_getElem?_of_map_eq h hx
    rw [hy, Option.map_some, Option.map_some, hentries i x y hx hy heq]

/-- The entries of a table with their places in front. -/
theorem mem_map_zipIdx_iff :
  (i, x) ∈ xs.toList.zipIdx.map (fun entry => (entry.2, entry.1)) ↔ xs[i]? = some x
  := by
  simp [List.mem_zipIdx_iff_getElem?]

/-- An entry that is changed is found as it is after that. -/
theorem getElem?_modify_self {f : α → α} (hx : xs[i]? = some x) :
  (xs.modify i f)[i]? = some (f x)
  := by
  rw [Array.getElem?_modify, if_pos rfl, hx, Option.map_some]

/-- Other entries stay when one is changed. -/
theorem getElem?_modify_of_ne {f : α → α} {k : Nat} (hne : k ≠ i) :
  (xs.modify i f)[k]? = xs[k]?
  := by
  rw [Array.getElem?_modify, if_neg hne.symm]

/-- What is seen of entries stays when one of them is changed to one that is seen the same. -/
theorem map_modify_of_seen {f : α → α} (h : ∀ x, xs[i]? = some x → view (f x) = view x) :
  (xs.modify i f).map view = xs.map view
  := by
  apply Array.ext_getElem?
  intro k
  rw [Array.getElem?_map, Array.getElem?_map, Array.getElem?_modify]
  split
  · rename_i heq
    subst heq
    cases hx : xs[i]? with
    | none => rfl
    | some x => rw [Option.map_some, Option.map_some, Option.map_some, h x hx]
  · rfl

/-- What is seen of entries stays when one of them is replaced by one that is seen the same. -/
theorem map_modify_of_eq (hx : xs[i]? = some x) (h : view x' = view x) :
  (xs.modify i fun _ => x').map view = xs.map view
  := by
  apply map_modify_of_seen
  intro y hy
  rw [hx] at hy
  cases hy
  apply h

/-- A table stays as it is when an entry takes its own place. -/
theorem modify_eq_self (hx : xs[i]? = some x) : (xs.modify i fun _ => x) = xs := by
  have h : (xs.modify i fun _ => x).map (fun x => x) = xs.map fun x => x := map_modify_of_eq hx rfl
  rwa [Array.map_id', Array.map_id'] at h

/-- An entry that is replaced is seen to be. -/
theorem map_replace (view : α → β) (xs : Array α) (i : Nat) (x : α) :
  (xs.modify i fun _ => x).map view = (xs.map view).modify i fun _ => view x
  := by
  apply Array.ext_getElem?
  intro k
  simp only [Array.getElem?_map, Array.getElem?_modify]
  split
  · rw [Option.map_map, Option.map_map]
    rfl
  · rfl

/-- Changing an entry changes the number of entries with a property by that entry. -/
theorem countP_modify (p : α → Bool) (f : α → α) (hx : xs[i]? = some x) :
  (xs.modify i f).countP p + (p x).toNat = xs.countP p + (p (f x)).toNat
  := by
  obtain ⟨hi, rfl⟩ := Array.getElem?_eq_some_iff.mp hx
  have hset : xs.modify i f = xs.set i (f xs[i]) hi := by
    apply Array.ext_getElem?
    intro k
    rw [Array.getElem?_modify, Array.getElem?_set]
    split
    · rename_i heq
      subst heq
      simp [hi]
    · rfl
  have hcount : p xs[i] → 0 < xs.countP p := by
    intro hp
    apply Array.countP_pos_iff.mpr
    exact ⟨_, Array.getElem_mem hi, hp⟩
  rw [hset, Array.countP_set]
  cases hold : p xs[i] <;> cases hnew : p (f xs[i]) <;> simp_all

/-- What a key is found to stand for stands beside it. -/
theorem mem_of_lookup_eq_some [BEq γ] [LawfulBEq γ] {k : γ} {pairs : List (γ × α)}
    (h : pairs.lookup k = some x) :
  (k, x) ∈ pairs
  := by
  obtain ⟨before, after, rfl, -⟩ := List.lookup_eq_some_iff.mp h
  apply List.mem_append_right before List.mem_cons_self

/-! ### Chains -/

/-- A chain holds nothing twice of which nothing leads back to itself. -/
theorem nodup_of_isChain {r : α → α → Prop} {xs : List α} (h : xs.IsChain r)
    (hloops : ∀ x ∈ xs, ¬ Relation.TransGen r x x) :
  xs.Nodup
  := by
  have hpairwise : xs.Pairwise (Relation.TransGen r) := by
    apply List.isChain_iff_pairwise.mp
    apply h.imp
    intro x y hxy
    apply Relation.TransGen.single hxy
  apply hpairwise.imp_of_mem
  rintro x _ hx - hxy rfl
  apply hloops x hx hxy

end RoutingFabric
