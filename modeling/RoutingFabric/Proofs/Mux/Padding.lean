import RoutingFabric.Proofs.Mux.Basis
import RoutingFabric.Proofs.Mux.RoundTrip

/-!
# Trees with stages to spare

A number of stages that is more than a tree needs, of two branches each, makes a tree all the same:
each input is attached where the tree attaches it, and the stages to spare are set to their first
branch. The main statement says so of every topology of several stages for which two branches are
enough.
-/

namespace RoutingFabric.Mux

variable {size levels : Nat} {technology : Technology} {m t : Model}

/-- The field that selects the first of two branches: a bit that is not set, or the row of the
branch, the row that is always on and the column of the branch. -/
def firstField : Technology → List Bool
  | .passTransistor => [false]
  | .resistive => [true, false] ++ [true] ++ [true, false, false]

/-- The model is a tree with stages to spare: the stages are of two branches, inputs are attached
where the tree attaches them, and what selects an input in the tree selects it in the model if it is
followed by the first branch of each stage more. -/
structure Model.Pads (m t : Model) : Prop where
  size : m.size = t.size
  basis : m.basis = 2
  levels : t.levels ≤ m.levels
  position : ∀ path < t.size, m.position path = t.position path
  encode : ∀ path < t.size, ∃ bits, t.encode path = .ok bits
    ∧ m.encode path = .ok (bits
      ++ ⟨(List.replicate (m.levels - t.levels) (firstField m.circuit.technology)).flatten⟩)

namespace Model

/-! ### Positions -/

/-- A stage whose power of the basis divides an input is one of the model, unless the input is the
first. -/
theorem lt_levels_of_dvd (ht : t.Sound) {path level : Nat} (hpos : 0 < path) (hpath : path < t.size)
    (hdvd : t.basis ^ level ∣ path) :
  level < t.levels
  := by
  have htwo := ht.two_le_basis
  apply (Nat.pow_lt_pow_iff_right (show 1 < t.basis by omega)).mp
  calc t.basis ^ level ≤ path := Nat.le_of_dvd hpos hdvd
    _ < t.size := hpath
    _ ≤ t.basis ^ t.levels := ht.reach

/-- Where an input is attached depends on the size and the basis only: stages that one model has more
than the other have powers of the basis that exceed all inputs. -/
theorem position_congr (hm : m.Sound) (ht : t.Sound) (hsize : m.size = t.size)
    (hbasis : m.basis = t.basis) {path : Nat} (hpath : path < t.size) :
  m.position path = t.position path
  := by
  have hpathm : path < m.size := by rwa [hsize]
  rcases Nat.lt_or_ge (path + 1) t.size with hlt | hlast
  · rw [position_of_not_last ht hlt, position_of_not_last hm (by rwa [hsize])]
  · have htwo := ht.two_le_size
    have hlast : path + 1 = t.size := by omega
    obtain ⟨level, hposition, -, hdvd, -, htop⟩ := position_spec ht hpath
    obtain ⟨level', hposition', -, hdvd', -, htop'⟩ := position_spec hm hpathm
    have hlt : level < m.levels := by
      apply lt_levels_of_dvd hm (by omega) hpathm
      rwa [hbasis]
    have hlt' : level' < t.levels := by
      apply lt_levels_of_dvd ht (by omega) hpath
      rwa [← hbasis]
    have hle : level' ≤ level := by
      by_contra hnot
      apply htop hlast level' (by omega) hlt'
      rwa [← hbasis]
    have hge : level ≤ level' := by
      by_contra hnot
      apply htop' (by omega) level (by omega) hlt
      rwa [hbasis]
    rw [hposition, hposition', Nat.le_antisymm hle hge, hbasis]

/-! ### Codes -/

/-- Digits depend on the basis only. -/
theorem digits_congr (hbasis : m.basis = t.basis) : ∀ count n, m.digits count n = t.digits count n
  | 0, _ => rfl
  | count + 1, n => by
      rw [digits, digits, hbasis, digits_congr hbasis count]

/-- The digits of zero are zero. -/
theorem digits_zero (m : Model) : ∀ count, m.digits count 0 = List.replicate count 0
  | 0 => rfl
  | count + 1 => by
      rw [digits, Nat.zero_mod, Nat.zero_div, digits_zero m count, List.replicate_succ]

/-- Digits are those of the lower part of a number and those of the part above. -/
theorem digits_add (m : Model) :
    ∀ count more n, m.digits (count + more) n
      = m.digits count n ++ m.digits more (n / m.basis ^ count)
  | 0, more, n => by
      rw [Nat.zero_add, pow_zero, Nat.div_one, digits, List.nil_append]
  | count + 1, more, n => by
      rw [Nat.succ_add, digits, digits_add m count, digits, List.cons_append,
        Nat.div_div_eq_div_mul, pow_succ']

/-- The digits of an input that more stages have are zero. -/
theorem digits_of_levels_le (ht : t.Sound) (hbasis : m.basis = t.basis)
    (hlevels : t.levels ≤ m.levels) {path : Nat} (hpath : path < t.size) :
  m.digits m.levels path
    = t.digits t.levels path ++ List.replicate (m.levels - t.levels) 0
  := by
  have hzero : path / m.basis ^ t.levels = 0 := by
    apply Nat.div_eq_of_lt
    rw [hbasis]
    apply lt_of_lt_of_le hpath ht.reach
  calc m.digits m.levels path
    _ = m.digits (t.levels + (m.levels - t.levels)) path := by rw [Nat.add_sub_cancel' hlevels]
    _ = m.digits t.levels path ++ m.digits (m.levels - t.levels) 0 := by rw [digits_add, hzero]
    _ = t.digits t.levels path ++ List.replicate (m.levels - t.levels) 0 := by
      rw [digits_congr hbasis, digits_zero]

/-- Stages of two branches have the same fields in all topologies of more than one stage. -/
theorem field_congr (hm : m.circuit.topology ≠ .oneLevel) (ht : t.circuit.topology ≠ .oneLevel)
    (htechnology : m.circuit.technology = t.circuit.technology) (hbasis : m.basis = t.basis)
    (branch : Nat) :
  m.field branch = t.field branch
  := by
  obtain ⟨-, hpass, -, hrows⟩ := field_eq m branch
  obtain ⟨-, hpass', -, hrows'⟩ := field_eq t branch
  cases h : t.circuit.technology with
  | passTransistor =>
    rw [hpass hm (htechnology.trans h), hpass' ht h, hbasis]
  | resistive =>
    rw [hrows hm (htechnology.trans h), hrows' ht h, hbasis]

/-- The field of the first of two branches. -/
theorem field_zero (hm : m.circuit.topology ≠ .oneLevel) (hbasis : m.basis = 2) :
  m.field 0 = firstField m.circuit.technology
  := by
  obtain ⟨-, hpass, -, hrows⟩ := field_eq m 0
  cases h : m.circuit.technology with
  | passTransistor =>
    rw [hpass hm h, if_pos hbasis]
    rfl
  | resistive =>
    rw [hrows hm h, hbasis]
    rfl

/-- The code of an input is that of the tree, followed by the first branch of each stage more. -/
theorem code_of_levels_le (ht : t.Sound) (hm : m.circuit.topology ≠ .oneLevel)
    (htree : t.circuit.topology ≠ .oneLevel)
    (htechnology : m.circuit.technology = t.circuit.technology) (hbasis : m.basis = 2)
    (hbasis' : t.basis = 2) (hlevels : t.levels ≤ m.levels) {path : Nat} (hpath : path < t.size) :
  m.code path = t.code path
    ++ (List.replicate (m.levels - t.levels) (firstField m.circuit.technology)).flatten
  := by
  have hsame : m.basis = t.basis := hbasis.trans hbasis'.symm
  have hfield : m.field = t.field := funext (field_congr hm htree htechnology hsame)
  rw [code, digits_of_levels_le ht hsame hlevels hpath, List.flatMap_append,
    List.flatMap_replicate, field_zero hm hbasis, hfield, code]

/-! ### Building both -/

/-- No model is built if a table of the positions of its inputs exceeds the memory. -/
theorem build_of_tableLimit_lt {circuit : Circuit} (ht : circuit.topology.Bounded)
    (hsize : 2 ≤ size) (htable : tableLimit < positionBytes * size) :
  Model.build size circuit = fault .tooLarge
  := by
  obtain ⟨levels, basis, hstages⟩ := exists_stages ht size
  rw [Model.build, if_neg (by omega), hstages]
  exact if_pos htable

/-- A tree is bounded. -/
theorem bounded_tree : Topology.Bounded .tree := by
  intro levels h
  cases h

/-- The model of a tree. -/
theorem build_tree (hsize : 2 ≤ size) (htable : positionBytes * size ≤ tableLimit) :
  Model.build size ⟨.tree, technology⟩ = .ok ⟨size, ⟨.tree, technology⟩, ceilLog2 size, 2⟩
  := build_eq_ok_iff.mpr ⟨hsize, htable, rfl, rfl, rfl⟩

/-- With as many stages as two branches are enough for, the least number of branches is two. -/
theorem leastBasis_eq_two (hword : size ≤ 2 ^ 64) (hlevels : 0 < levels)
    (hreach : size ≤ 2 ^ levels) :
  leastBasis size levels = 2
  := le_antisymm ((isLeast_leastBasis hword hlevels).2 ⟨le_refl 2, hreach⟩)
    (two_le_leastBasis size levels)

/-- A model of stages of two branches, of which it has at least as many as a tree has, is the tree
with stages to spare. -/
theorem Pads.of_build {circuit circuit' : Circuit} (hbounded : circuit.topology.Bounded)
    (hbounded' : circuit'.topology.Bounded) (hm : Model.build size circuit = .ok m)
    (ht : Model.build size circuit' = .ok t) (htopology : circuit.topology ≠ .oneLevel)
    (htopology' : circuit'.topology ≠ .oneLevel)
    (htechnology : circuit.technology = circuit'.technology) (hbasis : m.basis = 2)
    (hbasis' : t.basis = 2) (hlevels : t.levels ≤ m.levels) :
  m.Pads t
  := by
  have hsound := sound_of_build hbounded hm
  have hsound' := sound_of_build hbounded' ht
  obtain ⟨-, -, -, hsize, rfl⟩ := build_eq_ok_iff.mp hm
  obtain ⟨-, -, -, rfl, rfl⟩ := build_eq_ok_iff.mp ht
  constructor
  case size => exact hsize
  case basis => exact hbasis
  case levels => exact hlevels
  case position =>
    intro path hpath
    apply position_congr hsound hsound' hsize (hbasis.trans hbasis'.symm) hpath
  case encode =>
    intro path hpath
    refine ⟨_, encode_of_build hbounded' ht hpath, ?_⟩
    rw [encode_of_build hbounded hm hpath,
      code_of_levels_le hsound' htopology htopology' htechnology hbasis hbasis' hlevels hpath]
    rfl

/-- The model of several stages for which two branches are enough is the tree with stages to spare.
Where the positions of the inputs exceed the memory, neither of both is built. -/
theorem exists_pads_tree (technology : Technology) (hsize : 2 ≤ size) (hlevels : 2 ≤ levels)
    (hbound : levels < exponentLimit) (hreach : size ≤ 2 ^ levels) :
  (positionBytes * size ≤ tableLimit →
      ∃ m t, Model.build size ⟨.multiLevel levels, technology⟩ = .ok m
        ∧ Model.build size ⟨.tree, technology⟩ = .ok t ∧ m.levels = levels ∧ m.Pads t)
    ∧ (tableLimit < positionBytes * size →
      Model.build size ⟨.multiLevel levels, technology⟩ = fault .tooLarge
        ∧ Model.build size ⟨.tree, technology⟩ = fault .tooLarge)
  := by
  have hbounded : Topology.Bounded (.multiLevel levels) := by
    intro n h
    cases h
    omega
  constructor
  · intro htable
    have hword : size ≤ 2 ^ 64 := by
      simp only [positionBytes, tableLimit] at htable
      omega
    have hmod := Nat.mod_eq_of_lt hbound
    have hm : Model.build size ⟨.multiLevel levels, technology⟩ = .ok _ :=
      build_multiLevel hsize htable hlevels (by omega)
    have ht : Model.build size ⟨.tree, technology⟩ = .ok _ := build_tree hsize htable
    rw [hmod, leastBasis_eq_two hword (by omega) hreach] at hm
    refine ⟨_, _, hm, ht, rfl, ?_⟩
    apply Pads.of_build hbounded bounded_tree hm ht
    · intro h
      cases h
    · intro h
      cases h
    · rfl
    · rfl
    · rfl
    · apply ceilLog2_le hreach
  · intro htable
    exact ⟨build_of_tableLimit_lt hbounded hsize htable,
      build_of_tableLimit_lt bounded_tree hsize htable⟩

/-- Five inputs in five resistive stages make a tree of three stages with two to spare. -/
theorem exists_pads_tree_five :
  2 ≤ 5 ∧ 2 ≤ 5 ∧ 5 < exponentLimit ∧ 5 ≤ 2 ^ 5 ∧ positionBytes * 5 ≤ tableLimit
    ∧ ∃ m t, Model.build 5 ⟨.multiLevel 5, .resistive⟩ = .ok m
      ∧ Model.build 5 ⟨.tree, .resistive⟩ = .ok t ∧ m.levels = 5 ∧ t.levels = 3 ∧ m.Pads t
  := by
  have hbound : 5 < exponentLimit := by decide
  have htable : positionBytes * 5 ≤ tableLimit := by decide
  refine ⟨by decide, by decide, hbound, by decide, htable, ?_⟩
  obtain ⟨m, t, hm, ht, hlevels, hpads⟩ :=
    (exists_pads_tree .resistive (by decide) (by decide) hbound (by decide)).1 htable
  refine ⟨m, t, hm, ht, hlevels, ?_, hpads⟩
  have htree : Model.build 5 ⟨.tree, .resistive⟩ = .ok ⟨5, ⟨.tree, .resistive⟩, 3, 2⟩ := by
    decide +kernel
  rw [← Except.ok.inj (htree.symm.trans ht)]

end Model

end RoutingFabric.Mux
