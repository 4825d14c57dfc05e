import Mathlib.Algebra.Order.Ring.Nat
import Mathlib.Tactic.Ring
import RoutingFabric.Mux.Code

/-!
# Stages of a multiplexer

The number of branches found for a number of stages is the least with which they reach all
inputs. A model that is built therefore has at least two branches in each of at least one stage,
and an input for which the branches of all stages can be chosen. The bits of such a model always
fit a string of configuration bits.
-/

namespace RoutingFabric.Mux

/-- A multi-level topology has levels, and no more than an exponent can count. -/
def Topology.Bounded (t : Topology) : Prop :=
  ∀ levels, t = .multiLevel levels → 0 < levels ∧ levels < exponentLimit

/-! ### The least basis -/

/-- The search never goes back. -/
theorem le_leastBasisFrom (size exponent : Nat) :
    ∀ more basis, basis ≤ leastBasisFrom size exponent more basis
  | 0, basis => le_refl basis
  | more + 1, basis => by
      rw [leastBasisFrom]
      split
      · apply le_refl
      · have := le_leastBasisFrom size exponent more (basis + 1)
        omega

/-- The search ends at a basis that reaches, if the last one it may look at does. -/
theorem reaches_leastBasisFrom {size exponent : Nat} :
    ∀ more basis, reaches size exponent (basis + more) →
      reaches size exponent (leastBasisFrom size exponent more basis)
  | 0, basis, h => h
  | more + 1, basis, h => by
      rw [leastBasisFrom]
      split
      · assumption
      · apply reaches_leastBasisFrom
        rw [Nat.add_assoc, Nat.add_comm 1 more]
        apply h

/-- No basis that the search passes reaches. -/
theorem not_reaches_of_lt_leastBasisFrom {size exponent b : Nat} :
    ∀ more basis, basis ≤ b → b < leastBasisFrom size exponent more basis →
      ¬ reaches size exponent b
  | 0, basis, hle, hlt => by
      rw [leastBasisFrom] at hlt
      omega
  | more + 1, basis, hle, hlt => by
      rw [leastBasisFrom] at hlt
      split at hlt
      · omega
      · rename_i hbasis
        rcases eq_or_ne b basis with rfl | hne
        · apply hbasis
        · apply not_reaches_of_lt_leastBasisFrom more (basis + 1) (by omega) hlt

/-- A basis has at least two branches. -/
theorem two_le_leastBasis (size exponent : Nat) : 2 ≤ leastBasis size exponent :=
  le_leastBasisFrom size exponent size 2

/-- With the least basis a positive number of stages reaches all inputs. -/
theorem le_leastBasis_pow {size exponent : Nat} (h : 0 < exponent) :
  size ≤ leastBasis size exponent ^ min exponent 64
  := by
  have hlast : reaches size exponent (2 + size) := by
    apply decide_eq_true
    calc size ≤ 2 + size := by omega
      _ = (2 + size) ^ 1 := (pow_one _).symm
      _ ≤ (2 + size) ^ min exponent 64 := Nat.pow_le_pow_right (by omega) (by omega)
  apply of_decide_eq_true (reaches_leastBasisFrom size 2 hlast)

/-- With any smaller basis the stages do not reach all inputs. -/
theorem pow_lt_of_lt_leastBasis {size exponent b : Nat} (hb : 2 ≤ b)
    (h : b < leastBasis size exponent) :
  b ^ min exponent 64 < size
  := by
  have := not_reaches_of_lt_leastBasisFrom size 2 hb h
  simpa [reaches] using this

/-- The stages of a tree reach all inputs. -/
theorem le_two_pow_ceilLog2 (n : Nat) : n ≤ 2 ^ ceilLog2 n := by
  rw [ceilLog2]
  split
  · simpa
  · have := @Nat.lt_log2_self (n - 1)
    omega

/-- A tree of fewer than `2 ^ k` inputs has at most `k` stages. -/
theorem ceilLog2_le {n k : Nat} (h : n ≤ 2 ^ k) : ceilLog2 n ≤ k := by
  rw [ceilLog2]
  split
  · omega
  · have : (n - 1).log2 < k := (Nat.log2_lt (by omega)).mpr (by omega)
    omega

/-! ### Models that are built -/

/-- What holds of the numbers of every model that is built. -/
structure Model.Sound (m : Model) : Prop where
  two_le_size : 2 ≤ m.size
  size_fits : positionBytes * m.size ≤ tableLimit
  levels_pos : 0 < m.levels
  two_le_basis : 2 ≤ m.basis
  reach : m.size ≤ m.basis ^ m.levels
  oneLevel : m.circuit.topology = .oneLevel → m.levels = 1 ∧ m.basis = m.size

/-- What the numbers of stages and branches are for each topology. -/
theorem stages_eq_ok {size levels basis : Nat} {t : Topology}
    (h : stages size t = .ok (levels, basis)) :
  (t = .oneLevel ∧ levels = 1 ∧ basis = size)
    ∨ (t = .tree ∧ levels = ceilLog2 size ∧ basis = 2)
    ∨ (t = .multiLevel 1 ∧ levels = 1 ∧ basis = size)
    ∨ (t = .multiLevel levels ∧ 2 ≤ levels ∧ levels % exponentLimit ≠ 0
      ∧ basis = leastBasis size (levels % exponentLimit))
  := by
  rw [stages.eq_def] at h
  split at h
  · cases h
    simp
  · cases h
    simp
  · cases h
  · cases h
    simp
  · rename_i n hzero hone
    split at h
    · cases h
    · rename_i hmod
      cases h
      have : 2 ≤ levels := by
        have hne_zero : levels ≠ 0 := hzero
        have hne_one : levels ≠ 1 := hone
        omega
      simp_all

/-- There are numbers of stages and branches for each bounded topology. -/
theorem exists_stages {t : Topology} (ht : t.Bounded) (size : Nat) :
  ∃ levels basis, stages size t = .ok (levels, basis)
  := by
  cases t with
  | oneLevel => exact ⟨_, _, rfl⟩
  | tree => exact ⟨_, _, rfl⟩
  | multiLevel levels =>
    obtain ⟨hpos, hlt⟩ := ht levels rfl
    match levels with
    | 0 => cases hpos
    | 1 => exact ⟨_, _, rfl⟩
    | levels + 2 =>
      have hmod : (levels + 2) % exponentLimit ≠ 0 := by
        rw [Nat.mod_eq_of_lt hlt]
        omega
      simp only [stages, if_neg hmod]
      exact ⟨_, _, rfl⟩

/-- A model is built of at least two inputs, if a table of their positions fits the memory. -/
theorem Model.build_eq_ok_iff {size : Nat} {circuit : Circuit} {m : Model} :
  Model.build size circuit = .ok m ↔
    2 ≤ size ∧ positionBytes * size ≤ tableLimit
      ∧ stages size circuit.topology = .ok (m.levels, m.basis)
      ∧ m.size = size ∧ m.circuit = circuit
  := by
  rw [Model.build]
  obtain ⟨msize, mcircuit, mlevels, mbasis⟩ := m
  by_cases hsize : size < 2
  · simp only [hsize, if_true, fail, reduceCtorEq, false_iff]
    omega
  · cases hs : stages size circuit.topology with
    | error e => simp [hsize, bind, Except.bind]
    | ok r =>
      by_cases htable : tableLimit < positionBytes * size
      · simp [hsize, htable, bind, Except.bind, fault, Nat.not_le.mpr htable]
      · simp only [hsize, htable, if_false, bind, Except.bind, Except.ok.injEq, Model.mk.injEq]
        grind

/-- The numbers of a model that is built are sound. -/
theorem Model.sound_of_build {size : Nat} {circuit : Circuit} {m : Model}
    (ht : circuit.topology.Bounded) (h : Model.build size circuit = .ok m) :
  m.Sound
  := by
  obtain ⟨hsize, htable, hstages, rfl, rfl⟩ := Model.build_eq_ok_iff.mp h
  rcases stages_eq_ok hstages with
      ⟨htop, hlevels, hbasis⟩ | ⟨htop, hlevels, hbasis⟩ | ⟨htop, hlevels, hbasis⟩
      | ⟨htop, hlevels, -, hbasis⟩
  · constructor <;> simp_all
  · have hreach := le_two_pow_ceilLog2 m.size
    have hpos : 0 < ceilLog2 m.size := by
      by_contra hzero
      rw [Nat.eq_zero_of_not_pos hzero] at hreach
      omega
    constructor <;> simp_all
  · constructor <;> simp_all
  · have hlt : m.levels < exponentLimit := (ht _ htop).2
    rw [Nat.mod_eq_of_lt hlt] at hbasis
    have htwo := two_le_leastBasis m.size m.levels
    have hpos : 0 < m.levels := by omega
    have hreach : m.size ≤ leastBasis m.size m.levels ^ m.levels := by
      apply le_trans (le_leastBasis_pow hpos)
      apply Nat.pow_le_pow_right <;> omega
    constructor <;> simp_all

end RoutingFabric.Mux
