import Mathlib.Data.List.Count
import RoutingFabric.Proofs.Tables

/-!
# Links stored in both directions

Where the entries of a table name what they belong to, and what they belong to lists its entries in
turn, both have to agree. An entry names a key, and the key has a list of indices: the index of the
entry stands once in the list of its key and in no other, and lists increase. This is kept when an
entry is added and its index is appended to the list of its key, and when new keys come with empty
lists.
-/

namespace RoutingFabric

variable {α β κ : Type} [DecidableEq κ]

/-- The index of each entry that names a key stands in the list of that key, once, and in no
other. -/
structure Listed (xs : Array α) (key : α → Option κ) (lists : κ → Option (List Nat)) : Prop where
  /-- the keys that are named have lists -/
  known : ∀ (i : Nat) k, xs[i]?.bind key = some k → ∃ l, lists k = some l
  once : ∀ k l, lists k = some l → ∀ i, l.count i = if xs[i]?.bind key = some k then 1 else 0
  increasing : ∀ k l, lists k = some l → l.Pairwise (· < ·)

variable {xs xs' : Array α} {x : α} {key : α → Option κ} {lists lists' : κ → Option (List Nat)}
variable {k : κ} {l : List Nat} {i : Nat}

namespace Listed

/-- The list of a key holds the entries that name it. -/
theorem mem_iff (h : Listed xs key lists) (hl : lists k = some l) :
  i ∈ l ↔ xs[i]?.bind key = some k
  := by
  rw [← List.count_pos_iff, h.once k l hl i]
  split <;> simp_all

/-- An index that is listed is that of an entry. -/
theorem lt_size (h : Listed xs key lists) (hl : lists k = some l) (hi : i ∈ l) : i < xs.size := by
  obtain ⟨x, hx, -⟩ := Option.bind_eq_some_iff.mp ((h.mem_iff hl).mp hi)
  apply (Array.getElem?_eq_some_iff.mp hx).1

/-- Links depend on the keys that are named and on the lists of keys only. -/
theorem congr (h : Listed xs key lists) (hkeys : xs'.map key = xs.map key)
    (hlists : ∀ k, lists' k = lists k) :
  Listed xs' key lists'
  := by
  obtain rfl : lists' = lists := funext hlists
  have hkey : ∀ i : Nat, xs'[i]?.bind key = xs[i]?.bind key := by
    intro i
    have hget := congrArg (fun keys => keys[i]?.bind id) hkeys
    simpa only [Array.getElem?_map, Option.bind_map, Function.id_comp] using hget
  constructor
  case known =>
    intro i k
    rw [hkey i]
    apply h.known i k
  case once =>
    intro k l hl i
    rw [hkey i]
    apply h.once k l hl i
  case increasing => apply h.increasing

/-- All lists are empty where no keys are named. -/
theorem of_none (hkeys : ∀ i : Nat, xs[i]?.bind key = none)
    (hlists : ∀ k l, lists k = some l → l = []) :
  Listed xs key lists
  := by
  constructor
  case known =>
    intro i k hk
    rw [hkeys i] at hk
    cases hk
  case once =>
    intro k l hl i
    rw [hlists k l hl, hkeys i]
    rfl
  case increasing =>
    intro k l hl
    rw [hlists k l hl]
    apply List.Pairwise.nil

/-- Links stay where entries are changed in other ways than in what they name. -/
theorem modify_entry {i : Nat} {f : α → α} (h : Listed xs key lists)
    (hf : ∀ x, key (f x) = key x) :
  Listed (xs.modify i f) key lists
  := by
  apply h.congr (map_modify_of_seen fun x _ => hf x)
  intro k
  rfl

/-- New keys, which nothing names yet, have empty lists. -/
theorem grow (h : Listed xs key lists)
    (hlists : ∀ k, lists' k = lists k ∨ lists k = none ∧ lists' k = some []) :
  Listed xs key lists'
  := by
  have hold : ∀ k l, lists' k = some l → lists k = some l ∨ lists k = none ∧ l = [] := by
    intro k l hl
    rcases hlists k with hsame | ⟨hnone, hnew⟩
    · left
      rw [← hsame, hl]
    · right
      rw [hnew] at hl
      cases hl
      exact ⟨hnone, rfl⟩
  constructor
  case known =>
    intro i k hk
    obtain ⟨l, hl⟩ := h.known i k hk
    rcases hlists k with hsame | ⟨hnone, -⟩
    · exact ⟨l, hsame.trans hl⟩
    · rw [hnone] at hl
      cases hl
  case once =>
    intro k l hl i
    rcases hold k l hl with hl | ⟨hnone, rfl⟩
    · apply h.once k l hl i
    · rw [List.count_nil, if_neg]
      intro hk
      obtain ⟨l, hl⟩ := h.known i k hk
      rw [hnone] at hl
      cases hl
  case increasing =>
    intro k l hl
    rcases hold k l hl with hl | ⟨-, rfl⟩
    · apply h.increasing k l hl
    · apply List.Pairwise.nil

/-- The index of a new entry is appended to the list of the key that the entry names, if any. -/
theorem push (h : Listed xs key lists)
    (hlists : ∀ k, lists' k
      = if key x = some k then (lists k).map (· ++ [xs.size]) else lists k)
    (hknown : ∀ k ∈ key x, ∃ l, lists k = some l) :
  Listed (xs.push x) key lists'
  := by
  have hkey : ∀ i, (xs.push x)[i]?.bind key = if i = xs.size then key x else xs[i]?.bind key := by
    intro i
    rw [Array.getElem?_push]
    split <;> rfl
  have hnew : xs[xs.size]?.bind key = none := by
    rw [Array.getElem?_eq_none (Nat.le_refl _)]
    rfl
  have hold : ∀ k l, lists' k = some l →
      ∃ l₀, lists k = some l₀ ∧ l = if key x = some k then l₀ ++ [xs.size] else l₀ := by
    intro k l hl
    rw [hlists k] at hl
    split at hl
    · obtain ⟨l₀, hl₀, rfl⟩ := Option.map_eq_some_iff.mp hl
      exact ⟨l₀, hl₀, (if_pos ‹_›).symm⟩
    · exact ⟨l, hl, (if_neg ‹_›).symm⟩
  constructor
  case known =>
    intro i k hk
    obtain ⟨l, hl⟩ : ∃ l, lists k = some l := by
      rw [hkey i] at hk
      split at hk
      · apply hknown k hk
      · apply h.known i k hk
    rw [hlists k, hl]
    split
    · exact ⟨l ++ [xs.size], rfl⟩
    · exact ⟨l, rfl⟩
  case once =>
    intro k l hl i
    obtain ⟨l₀, hl₀, rfl⟩ := hold k l hl
    have hcount := h.once k l₀ hl₀ i
    rw [hkey i]
    by_cases hi : i = xs.size
    · subst hi
      rw [hnew, if_neg (by simp)] at hcount
      rw [if_pos rfl]
      split
      · rw [List.count_append, hcount, List.count_singleton_self]
      · apply hcount
    · rw [if_neg hi]
      split
      · rw [List.count_append, List.count_cons_of_ne (Ne.symm hi), List.count_nil, Nat.add_zero]
        apply hcount
      · apply hcount
  case increasing =>
    intro k l hl
    obtain ⟨l₀, hl₀, rfl⟩ := hold k l hl
    have hsorted := h.increasing k l₀ hl₀
    split
    · rw [List.pairwise_append]
      refine ⟨hsorted, List.pairwise_singleton _ _, ?_⟩
      intro i hi j hj
      rw [List.mem_singleton.mp hj]
      apply h.lt_size hl₀ hi
    · apply hsorted

/-! ### Lists in tables -/

variable {key : α → Option Nat} {ys : Array β} {y : β} {list : β → List Nat} {f : β → β} {j : Nat}

/-- What an entry names is in the table with the lists. -/
theorem named_lt (h : Listed xs key fun k => ys[k]?.map list) (hx : xs[i]? = some x)
    (hkey : key x = some j) :
  j < ys.size
  := by
  obtain ⟨l, hl⟩ := h.known i j (Option.bind_eq_some_iff.mpr ⟨x, hx, hkey⟩)
  obtain ⟨y, hy, -⟩ := Option.map_eq_some_iff.mp hl
  apply (Array.getElem?_eq_some_iff.mp hy).1

/-- Links stay where the table with the lists is changed elsewhere. -/
theorem modify_of_eq (h : Listed xs key fun k => ys[k]?.map list) (hf : ∀ y, list (f y) = list y) :
  Listed xs key fun k => (ys.modify j f)[k]?.map list
  := by
  apply h.congr rfl
  intro k
  rw [← Array.getElem?_map, map_modify_of_seen fun y _ => hf y, Array.getElem?_map]

/-- A new entry of the table with the lists has an empty list. -/
theorem push_of_nil (h : Listed xs key fun k => ys[k]?.map list) (hy : list y = []) :
  Listed xs key fun k => (ys.push y)[k]?.map list
  := by
  apply h.grow
  intro k
  rw [Array.getElem?_push]
  split
  · rename_i heq
    right
    subst heq
    simp [hy]
  · left
    rfl

/-- A new entry is appended to the list of the entry that it names. -/
theorem push_modify (h : Listed xs key fun k => ys[k]?.map list) (hkey : key x = some j)
    (hj : j < ys.size) (hf : ∀ y, list (f y) = list y ++ [xs.size]) :
  Listed (xs.push x) key fun k => (ys.modify j f)[k]?.map list
  := by
  apply h.push
  · intro k
    rw [Array.getElem?_modify, hkey]
    by_cases hk : j = k
    · rw [if_pos hk, if_pos (congrArg some hk), Option.map_map, Option.map_map]
      congr 1
      funext y
      apply hf
    · rw [if_neg hk, if_neg fun heq => hk (Option.some.inj heq)]
  · rintro k hk
    rw [hkey] at hk
    cases hk
    exact ⟨list ys[j], by simp [hj]⟩

end Listed

end RoutingFabric
