import Mathlib.Data.Nat.Digits.Defs
import Mathlib.Order.Bounds.Basic
import RoutingFabric.Proofs.Mux.Positions

/-!
# The least sufficient number of branches

A model with several stages has as many stages as its topology says, and in each the least number
of branches, two or more, with which the stages reach all inputs. The number of stages is an
exponent in the search for that number, and an exponent counts no more than `exponentLimit`. The
main statement says for every number of stages which model is built, and that the branches are
those of all its stages exactly if the limit leaves enough of them.
-/

namespace RoutingFabric.Mux

variable {size levels exponent : Nat} {technology : Technology} {m : Model}

/-! ### Least numbers -/

/-- Stages past the 64th make no difference to what a machine word can count. -/
theorem le_pow_min_iff {b : Nat} (hsize : size ≤ 2 ^ 64) (hb : 2 ≤ b) :
  size ≤ b ^ min exponent 64 ↔ size ≤ b ^ exponent
  := by
  rcases Nat.le_total exponent 64 with hle | hge
  · rw [Nat.min_eq_left hle]
  · have hreach : ∀ n, 64 ≤ n → size ≤ b ^ n := by
      intro n hn
      calc size ≤ 2 ^ 64 := hsize
        _ ≤ b ^ 64 := Nat.pow_le_pow_left hb 64
        _ ≤ b ^ n := Nat.pow_le_pow_right (by omega) hn
    rw [Nat.min_eq_right hge]
    exact iff_of_true (hreach 64 (le_refl _)) (hreach exponent hge)

/-- The basis that is found is the least with which the stages reach all inputs. -/
theorem isLeast_leastBasis (hsize : size ≤ 2 ^ 64) (hexponent : 0 < exponent) :
  IsLeast {b | 2 ≤ b ∧ size ≤ b ^ exponent} (leastBasis size exponent)
  := by
  have htwo := two_le_leastBasis size exponent
  constructor
  · exact ⟨htwo, (le_pow_min_iff hsize htwo).mp (le_leastBasis_pow hexponent)⟩
  · rintro b ⟨hb, hreach⟩
    by_contra hlt
    have hshort := pow_lt_of_lt_leastBasis hb (Nat.lt_of_not_le hlt)
    have := (le_pow_min_iff hsize hb).mpr hreach
    omega

/-! ### Digits -/

/-- Digits stand for a number as far as they reach. -/
theorem Model.ofDigits_digits (m : Model) :
    ∀ count n, Nat.ofDigits m.basis (m.digits count n) = n % m.basis ^ count
  | 0, n => by simp [digits, Nat.mod_one]
  | count + 1, n => by
      rw [digits, Nat.ofDigits_cons, ofDigits_digits m count, pow_succ', Nat.mod_mul]

/-- The model has so many stages, and in each the least number of branches with which `exponent`
stages reach all inputs. Every input has one digit for each stage. -/
structure Model.Frugal (m : Model) (size levels exponent : Nat) : Prop where
  inputs : m.size = size
  stages : m.levels = levels
  least : IsLeast {b | 2 ≤ b ∧ size ≤ b ^ exponent} m.basis
  digits : ∀ path < size, (m.digits levels path).length = levels
    ∧ (∀ digit ∈ m.digits levels path, digit < m.basis)
    ∧ Nat.ofDigits m.basis (m.digits levels path) = path

/-! ### Models of several stages -/

/-- The model of a topology of several stages, where the number of them counts as an exponent. -/
theorem Model.build_multiLevel (hsize : 2 ≤ size) (htable : positionBytes * size ≤ tableLimit)
    (hlevels : 2 ≤ levels) (hexponent : levels % exponentLimit ≠ 0) :
  Model.build size ⟨.multiLevel levels, technology⟩ = .ok ⟨size, ⟨.multiLevel levels, technology⟩,
    levels, leastBasis size (levels % exponentLimit)⟩
  := by
  apply Model.build_eq_ok_iff.mpr
  refine ⟨hsize, htable, ?_, rfl, rfl⟩
  obtain ⟨n, rfl⟩ := Nat.exists_eq_add_of_le' hlevels
  exact if_neg hexponent

/-- Where the number of stages does not count as an exponent, the search for a basis never ends. -/
theorem Model.build_endless (hsize : 2 ≤ size) (hlevels : 2 ≤ levels)
    (hexponent : levels % exponentLimit = 0) :
  Model.build size ⟨.multiLevel levels, technology⟩ = fault .endless
  := by
  have hstages : stages size (.multiLevel levels) = fault .endless := by
    obtain ⟨n, rfl⟩ := Nat.exists_eq_add_of_le' hlevels
    exact if_pos hexponent
  rw [Model.build, if_neg (by omega), hstages]
  rfl

/-- A model of several stages that is built has the least basis for the stages that count. -/
theorem Model.frugal_of_build (hlevels : 2 ≤ levels)
    (h : Model.build size ⟨.multiLevel levels, technology⟩ = .ok m) :
  m.Frugal size levels (levels % exponentLimit)
  := by
  obtain ⟨hsize, htable, -, -, -⟩ := Model.build_eq_ok_iff.mp h
  have hexponent : levels % exponentLimit ≠ 0 := by
    intro hzero
    rw [Model.build_endless hsize hlevels hzero] at h
    cases h
  rw [Model.build_multiLevel hsize htable hlevels hexponent] at h
  have hword : size ≤ 2 ^ 64 := by
    simp only [positionBytes, tableLimit] at htable
    omega
  have hleast := isLeast_leastBasis hword (Nat.pos_of_ne_zero hexponent)
  have htwo := hleast.1.1
  have hreach : size ≤ leastBasis size (levels % exponentLimit) ^ levels := by
    apply le_trans hleast.1.2
    apply Nat.pow_le_pow_right (by omega) (Nat.mod_le _ _)
  cases h
  constructor
  case inputs => rfl
  case stages => rfl
  case least => exact hleast
  case digits =>
    intro path hpath
    refine ⟨length_digits _ _ _, ?_, ?_⟩
    · intro digit
      apply lt_basis_of_mem_digits
      constructor <;> simp <;> omega
    · rw [ofDigits_digits]
      apply Nat.mod_eq_of_lt
      apply lt_of_lt_of_le hpath hreach

/-- The least basis for some of the stages is that for all of them where two branches are enough
for those. -/
theorem Model.Frugal.of_two_pow (h : m.Frugal size levels exponent) (hle : exponent ≤ levels)
    (htwo : size ≤ 2 ^ exponent) :
  m.Frugal size levels levels
  := by
  have hbasis : m.basis = 2 := le_antisymm (h.least.2 ⟨le_refl 2, htwo⟩) h.least.1.1
  refine { h with least := ⟨⟨h.least.1.1, ?_⟩, fun b hb => ?_⟩ }
  · rw [hbasis]
    apply le_trans htwo
    apply Nat.pow_le_pow_right (by omega) hle
  · rw [hbasis]
    exact hb.1

/-- What becomes of a number of stages, two or more. Where nothing is left of it modulo the exponent
limit, the search for a basis never ends, and otherwise the model is built with the least basis for
what is left. That is the least basis for all stages exactly if the number is below the limit, or
two branches are enough for what is left of it. -/
theorem Model.exists_frugal_iff (hsize : 2 ≤ size) (htable : positionBytes * size ≤ tableLimit)
    (hlevels : 2 ≤ levels) :
  (levels % exponentLimit = 0 →
      Model.build size ⟨.multiLevel levels, technology⟩ = fault .endless)
    ∧ (levels % exponentLimit ≠ 0 →
      ∃ m, Model.build size ⟨.multiLevel levels, technology⟩ = .ok m
        ∧ m.Frugal size levels (levels % exponentLimit))
    ∧ ((∃ m, Model.build size ⟨.multiLevel levels, technology⟩ = .ok m
        ∧ m.Frugal size levels levels)
      ↔ levels < exponentLimit ∨ size ≤ 2 ^ (levels % exponentLimit))
  := by
  have hbuilt : levels % exponentLimit ≠ 0 →
      ∃ m, Model.build size ⟨.multiLevel levels, technology⟩ = .ok m
        ∧ m.Frugal size levels (levels % exponentLimit) := by
    intro hexponent
    have h : Model.build size ⟨.multiLevel levels, technology⟩ = .ok _ :=
      Model.build_multiLevel hsize htable hlevels hexponent
    exact ⟨_, h, frugal_of_build hlevels h⟩
  refine ⟨Model.build_endless hsize hlevels, hbuilt, ?_⟩
  constructor
  · rintro ⟨m, hm, hfrugal⟩
    rw [or_iff_not_imp_left]
    intro hlimit
    -- two branches are enough for that many stages, so the model has two
    have htwo : size ≤ 2 ^ levels := by
      simp only [positionBytes, tableLimit, exponentLimit] at *
      calc size ≤ 2 ^ 64 := by omega
        _ ≤ 2 ^ levels := Nat.pow_le_pow_right (by omega) (by omega)
    have hbasis : m.basis = 2 :=
      le_antisymm (hfrugal.least.2 ⟨le_refl 2, htwo⟩) hfrugal.least.1.1
    have hreach := (frugal_of_build hlevels hm).least.1.2
    rwa [hbasis] at hreach
  · rintro (hlimit | htwo)
    · have hmod := Nat.mod_eq_of_lt hlimit
      rw [hmod] at hbuilt
      apply hbuilt
      omega
    · obtain ⟨m, hm, hfrugal⟩ := hbuilt (by
        intro hzero
        rw [hzero] at htwo
        omega)
      exact ⟨m, hm, hfrugal.of_two_pow (Nat.mod_le _ _) htwo⟩

/-- Two stages for nine inputs have three branches each. -/
theorem Model.exists_frugal_nine :
  2 ≤ 9 ∧ positionBytes * 9 ≤ tableLimit ∧ 2 ≤ 2
    ∧ ∃ m, Model.build 9 ⟨.multiLevel 2, .passTransistor⟩ = .ok m ∧ m.Frugal 9 2 2
  := by
  have htable : positionBytes * 9 ≤ tableLimit := by
    decide
  use by decide, htable, le_refl 2
  apply (Model.exists_frugal_iff (by decide) htable (le_refl 2)).2.2.mpr
  left
  decide

/-- With one stage more than an exponent can count, only that one counts: five inputs get five
branches in each stage, where two would do. -/
theorem Model.not_frugal_past_limit :
  2 ≤ 5 ∧ positionBytes * 5 ≤ tableLimit ∧ 2 ≤ exponentLimit + 1 ∧ exponentLimit + 1 < wordLimit
    ∧ Model.build 5 ⟨.multiLevel (exponentLimit + 1), .passTransistor⟩
      = .ok ⟨5, ⟨.multiLevel (exponentLimit + 1), .passTransistor⟩, exponentLimit + 1, 5⟩
    ∧ ¬ ∃ m, Model.build 5 ⟨.multiLevel (exponentLimit + 1), .passTransistor⟩ = .ok m
      ∧ m.Frugal 5 (exponentLimit + 1) (exponentLimit + 1)
  := by
  have hbuild : Model.build 5 ⟨.multiLevel (exponentLimit + 1), .passTransistor⟩
      = .ok ⟨5, ⟨.multiLevel (exponentLimit + 1), .passTransistor⟩, exponentLimit + 1, 5⟩ := by
    decide +kernel
  refine ⟨by decide, by decide, by decide, by decide, hbuild, ?_⟩
  rintro ⟨m, hm, hfrugal⟩
  have hbasis : m.basis = 5 := by
    rw [← Except.ok.inj (hbuild.symm.trans hm)]
  have htwo : 5 ≤ 2 ^ (exponentLimit + 1) := by
    calc 5 ≤ 2 ^ 3 := by decide
      _ ≤ 2 ^ (exponentLimit + 1) := Nat.pow_le_pow_right (by decide) (by decide)
  have hle : m.basis ≤ 2 := hfrugal.least.2 ⟨le_refl 2, htwo⟩
  omega

end RoutingFabric.Mux
