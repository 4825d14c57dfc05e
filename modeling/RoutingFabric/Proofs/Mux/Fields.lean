import Mathlib.Data.List.Basic
import RoutingFabric.Proofs.Mux.Positions

/-!
# Fields of a multiplexer

In each of the five layouts the field of a branch is as wide as the model says and is read back
as that branch.
-/

namespace RoutingFabric.Mux

/-! ### One bit of many -/

/-- A list of one set bit is made of unset bits on both sides of it. -/
theorem oneHot_eq_append {n i : Nat} (h : i < n) :
  oneHot n i = List.replicate i false ++ true :: List.replicate (n - i - 1) false
  := by
  apply List.ext_getElem
  · simp [oneHot]
    omega
  · intro k hk hk'
    simp only [oneHot, List.getElem_map, List.getElem_range, List.getElem_append,
      List.length_replicate, List.getElem_replicate]
    split
    · simp
      omega
    · rw [List.getElem_cons, Bool.eq_iff_iff]
      simp
      omega

/-- A list of one set bit has as many bits as it is asked for. -/
@[simp] theorem length_oneHot (n i : Nat) : (oneHot n i).length = n := by
  simp [oneHot]

/-- The set bit is found. -/
theorem oneHot?_oneHot {n i : Nat} (h : i < n) : oneHot? (oneHot n i) = some i := by
  rw [oneHot_eq_append h, oneHot?]
  have hcount : (List.replicate i false ++ true :: List.replicate (n - i - 1) false).count true = 1
    := by
    simp [List.count_replicate]
  rw [if_pos hcount, List.idxOf_append_of_notMem (by simp)]
  simp

namespace Model

variable {m : Model}

/-! ### The field of a branch -/

/-- The column of a row is one of the columns. -/
theorem column_lt {row : Nat} (h : row < m.size) : m.column row < m.size := by
  rw [column]
  split
  · omega
  · split <;> omega

/-- A field is as wide as the model says. -/
@[simp] theorem length_field (m : Model) (branch : Nat) :
  (m.field branch).length = m.fieldWidth
  := by
  rw [field, fieldWidth]
  split
  · simp
  · split <;> simp
  · simp
    omega
  · simp
    omega

/-- The field of a branch in each layout. -/
theorem field_eq (m : Model) (branch : Nat) :
  (m.circuit.topology = .oneLevel → m.circuit.technology = .passTransistor →
      m.field branch = oneHot m.size branch)
    ∧ (m.circuit.topology ≠ .oneLevel → m.circuit.technology = .passTransistor →
      m.field branch = if m.basis = 2 then [branch == 1] else oneHot m.basis branch)
    ∧ (m.circuit.topology = .oneLevel → m.circuit.technology = .resistive →
      m.field branch = oneHot m.size branch ++ oneHot m.size (m.column branch))
    ∧ (m.circuit.topology ≠ .oneLevel → m.circuit.technology = .resistive →
      m.field branch = oneHot m.basis branch ++ true :: oneHot (m.basis + 1) branch)
  := by
  rw [field]
  split <;> simp_all

/-- A field is read back as its branch. -/
theorem branch?_field (hm : m.Sound) {branch : Nat} (h : branch < m.basis) :
  m.branch? (m.field branch) = some branch
  := by
  obtain ⟨hone, hmany, hpaired, hrows⟩ := field_eq m branch
  rw [branch?]
  split
  · rename_i htech htop
    rw [hone htop htech]
    rw [(hm.oneLevel htop).2] at h
    apply oneHot?_oneHot h
  · rename_i htech htop
    rw [hmany htop htech]
    split
    · have : branch = 0 ∨ branch = 1 := by omega
      rcases this with rfl | rfl <;> rfl
    · apply oneHot?_oneHot h
  · rename_i htech htop
    rw [hpaired htop htech]
    rw [(hm.oneLevel htop).2] at h
    rw [List.take_left' (length_oneHot _ _), List.drop_left' (length_oneHot _ _),
      oneHot?_oneHot h, oneHot?_oneHot (column_lt h)]
    simp
  · rename_i htech htop
    rw [hrows htop htech]
    have hrow : (oneHot m.basis branch ++ true :: oneHot (m.basis + 1) branch)[m.basis]?
        = some true := by
      simp
    have hcolumn : (oneHot m.basis branch ++ true :: oneHot (m.basis + 1) branch).drop (m.basis + 1)
        = oneHot (m.basis + 1) branch := by
      rw [← List.singleton_append, ← List.append_assoc]
      apply List.drop_left'
      simp
    rw [hrow, hcolumn, List.take_left' (length_oneHot _ _), oneHot?_oneHot h,
      oneHot?_oneHot (by omega)]
    simp

end Model

end RoutingFabric.Mux
