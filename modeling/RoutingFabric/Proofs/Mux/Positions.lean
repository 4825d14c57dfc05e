import Mathlib.Data.List.Induction
import Mathlib.Data.Nat.Basic
import RoutingFabric.Proofs.Mux.Stages

/-!
# Positions of the inputs of a multiplexer

Below a branch of a stage lie as many inputs as a power of the basis says, as far as a machine
word can tell. Only the last input is ever attached above the first stage, and it is attached to
the highest stage whose power of the basis divides it. Following the digits of an input from
the output of the multiplexer therefore leads to this input, and to no other one on the way.
-/

namespace RoutingFabric.Mux.Model

variable {m : Model}

/-! ### Spans -/

/-- A span is a power of the basis, as far as a machine word can tell. -/
theorem span_eq (m : Model) (stage : Nat) :
  m.span stage = min (m.basis ^ min stage 64) (wordLimit - 1)
  := rfl

/-- A span that fits a machine word is a power of the basis. -/
theorem span_of_pow_lt (hm : m.Sound) {stage : Nat} (h : m.basis ^ stage < wordLimit) :
  m.span stage = m.basis ^ stage
  := by
  have hstage : stage < 64 := by
    have htwo : 2 ^ stage ≤ m.basis ^ stage := Nat.pow_le_pow_left hm.two_le_basis stage
    apply (Nat.pow_lt_pow_iff_right (show 1 < 2 by omega)).mp (lt_of_le_of_lt htwo h)
  rw [span_eq]
  rw [Nat.min_eq_left (show stage ≤ 64 by omega)]
  omega

/-- A span that does not fit a machine word exceeds the number of inputs. -/
theorem size_lt_span (hm : m.Sound) {stage : Nat} (h : wordLimit ≤ m.basis ^ stage) :
  m.size < m.span stage
  := by
  have hpow : wordLimit ≤ m.basis ^ min stage 64 := by
    rcases Nat.le_total stage 64 with hle | hlt
    · rwa [Nat.min_eq_left hle]
    · rw [Nat.min_eq_right hlt]
      calc wordLimit = 2 ^ 64 := by decide
        _ ≤ m.basis ^ 64 := Nat.pow_le_pow_left hm.two_le_basis 64
  have hsize := hm.size_fits
  rw [span_eq]
  simp only [positionBytes, tableLimit, wordLimit] at *
  omega

/-- A number of inputs is divided by a span as by the power of the basis. -/
theorem div_span (hm : m.Sound) {path : Nat} (hpath : path < m.size) (stage : Nat) :
  path / m.span stage = path / m.basis ^ stage
  := by
  rcases Nat.lt_or_ge (m.basis ^ stage) wordLimit with h | h
  · rw [span_of_pow_lt hm h]
  · have hspan := size_lt_span hm h
    have hsize := hm.size_fits
    simp only [positionBytes, tableLimit, wordLimit] at *
    rw [Nat.div_eq_of_lt (by omega), Nat.div_eq_of_lt (by omega)]

/-- The first input below the branch that holds an input is what the power of the basis says. -/
theorem div_mul_span (hm : m.Sound) {path : Nat} (hpath : path < m.size) (stage : Nat) :
  path / m.basis ^ stage * m.span stage = path / m.basis ^ stage * m.basis ^ stage
  := by
  rcases Nat.lt_or_ge (m.basis ^ stage) wordLimit with h | h
  · rw [span_of_pow_lt hm h]
  · have hsize := hm.size_fits
    have hzero : path / m.basis ^ stage = 0 := by
      apply Nat.div_eq_of_lt
      simp only [positionBytes, tableLimit, wordLimit] at *
      omega
    simp [hzero]

/-! ### Where inputs are attached -/

/-- The branch above an input holds no other input exactly for the last input, at the stages
whose power of the basis divides it. -/
theorem alone_iff (hm : m.Sound) {path stage : Nat} (hpath : path < m.size) (hstage : 0 < stage) :
  (path % m.span stage = 0
      ∧ min ((path / m.span stage + 1) * m.span stage) m.size = path + 1)
    ↔ path + 1 = m.size ∧ m.basis ^ stage ∣ path
  := by
  have htwo := hm.two_le_size
  rcases Nat.lt_or_ge (m.basis ^ stage) wordLimit with h | h
  · rw [span_of_pow_lt hm h, ← Nat.dvd_iff_mod_eq_zero]
    have hspan : 2 ≤ m.basis ^ stage := by
      calc 2 ≤ m.basis := hm.two_le_basis
        _ = m.basis ^ 1 := (pow_one _).symm
        _ ≤ m.basis ^ stage := Nat.pow_le_pow_right (by have := hm.two_le_basis; omega) hstage
    constructor
    · rintro ⟨hdvd, hmin⟩
      rw [Nat.add_mul, Nat.div_mul_cancel hdvd] at hmin
      omega
    · rintro ⟨hlast, hdvd⟩
      use hdvd
      rw [Nat.add_mul, Nat.div_mul_cancel hdvd]
      omega
  · have hspan := size_lt_span hm h
    constructor
    · rintro ⟨hmod, hmin⟩
      rw [Nat.mod_eq_of_lt (by omega)] at hmod
      rw [hmod, Nat.zero_div] at hmin
      omega
    · rintro ⟨hlast, hdvd⟩
      have hle := Nat.le_of_dvd (by omega) hdvd
      have hsize := hm.size_fits
      simp only [positionBytes, tableLimit, wordLimit] at *
      omega

/-- An input other than the last is attached to the first stage. -/
theorem position_of_not_last (hm : m.Sound) {path : Nat} (hpath : path + 1 < m.size) :
  m.position path = ⟨0, path⟩
  := by
  rw [position]
  cases m.levels - 1 with
  | zero => rfl
  | succ more =>
    rw [climb]
    split
    · rename_i h
      have := ((alone_iff hm (by omega) (by omega)).mp h).1
      omega
    · rfl

/-- From a stage whose power divides the last input, climbing ends at such a stage, and where it
ends early the power of the next stage does not divide the input. -/
theorem climb_last (hm : m.Sound) {path : Nat} (hlast : path + 1 = m.size) :
    ∀ more level, m.basis ^ level ∣ path →
      ∃ top, m.climb path more ⟨level, path / m.basis ^ level⟩ = ⟨top, path / m.basis ^ top⟩
        ∧ level ≤ top ∧ top ≤ level + more ∧ m.basis ^ top ∣ path
        ∧ (top < level + more → ¬ m.basis ^ (top + 1) ∣ path)
  | 0, level, hdvd => by
      use level, rfl
      simpa
  | more + 1, level, hdvd => by
      have hpath : path < m.size := by omega
      have halone := alone_iff hm hpath (Nat.succ_pos level)
      rw [climb]
      simp only
      split
      · rename_i h
        have hnext := (halone.mp h).2
        rw [div_span hm hpath]
        obtain ⟨top, hclimb, hle, hge, htop, hend⟩ := climb_last hm hlast more (level + 1) hnext
        use top, hclimb
        refine ⟨by omega, by omega, htop, fun _ => hend (by omega)⟩
      · rename_i h
        use level, rfl
        refine ⟨by omega, by omega, hdvd, fun _ hnext => h (halone.mpr ⟨hlast, hnext⟩)⟩

/-- An input is attached to a stage whose power of the basis divides it. Above the first stage
only the last input is attached, and that to the highest such stage. -/
theorem position_spec (hm : m.Sound) {path : Nat} (hpath : path < m.size) :
  ∃ level, m.position path = ⟨level, path / m.basis ^ level⟩
    ∧ level < m.levels ∧ m.basis ^ level ∣ path
    ∧ (0 < level → path + 1 = m.size)
    ∧ (path + 1 = m.size → ∀ stage, level < stage → stage < m.levels → ¬ m.basis ^ stage ∣ path)
  := by
  have hlevels := hm.levels_pos
  rcases Nat.lt_or_ge (path + 1) m.size with hlt | hlast
  · use 0
    rw [position_of_not_last hm hlt]
    simp
    omega
  · have heq : path + 1 = m.size := by omega
    obtain ⟨top, hclimb, -, hle, hdvd, hend⟩ := climb_last hm heq (m.levels - 1) 0 (by simp)
    use top
    constructor
    · rw [position]
      simpa using hclimb
    · refine ⟨by omega, hdvd, fun _ => heq, fun _ stage hlow hhigh hstage => ?_⟩
      apply hend (by omega)
      apply dvd_trans (pow_dvd_pow m.basis (by omega)) hstage

/-! ### Following digits -/

/-- There are as many digits as are asked for. -/
@[simp] theorem length_digits (m : Model) : ∀ count n, (m.digits count n).length = count
  | 0, _ => rfl
  | count + 1, n => by
      rw [digits, List.length_cons, length_digits m count]

/-- The last digit is the one of the highest power. -/
theorem digits_succ (m : Model) :
    ∀ count n, m.digits (count + 1) n = m.digits count n ++ [n / m.basis ^ count % m.basis]
  | 0, n => by simp [digits]
  | count + 1, n => by
      rw [digits, digits_succ m count, digits, List.cons_append, Nat.div_div_eq_div_mul,
        pow_succ, Nat.mul_comm m.basis]

/-- Each digit is one of the branches. -/
theorem lt_basis_of_mem_digits (hm : m.Sound) :
    ∀ {count n digit : Nat}, digit ∈ m.digits count n → digit < m.basis
  | count + 1, n, digit, h => by
      rw [digits, List.mem_cons] at h
      rcases h with rfl | h
      · apply Nat.mod_lt
        have := hm.two_le_basis
        omega
      · apply lt_basis_of_mem_digits hm h

/-- A number is put together from a digit and the number above it. -/
theorem div_pow_succ_mul_add (m : Model) (path stage : Nat) :
  path / m.basis ^ (stage + 1) * m.basis + path / m.basis ^ stage % m.basis
    = path / m.basis ^ stage
  := by
  rw [pow_succ, ← Nat.div_div_eq_div_mul, Nat.div_add_mod']

/-- Branches that are the digits of an input from the stage on that it is attached to, lead to the
input. -/
theorem follow_of_drop_eq (hm : m.Sound) {path : Nat} (hpath : path < m.size) {branches : List Nat}
    (hlength : branches.length ≤ m.levels) (hlevel : (m.position path).level < branches.length)
    (hdrop : branches.drop (m.position path).level
      = (m.digits branches.length path).drop (m.position path).level) :
  m.follow (path / m.basis ^ branches.length) branches.reverse = some path
  := by
  obtain ⟨level, hpos, -, hdvd, -, htop⟩ := position_spec hm hpath
  rw [hpos] at hlevel hdrop
  simp only at hlevel hdrop
  induction branches using List.reverseRecOn with
  | nil => cases hlevel
  | append_singleton below branch ih =>
    rw [List.length_append, List.length_singleton] at hlength hlevel hdrop ⊢
    rw [digits_succ, List.drop_append_of_le_length (by omega),
      List.drop_append_of_le_length (by rw [length_digits]; omega)] at hdrop
    obtain ⟨hbelow, hbranch⟩ := List.append_inj' hdrop rfl
    obtain rfl := List.singleton_inj.mp hbranch
    have hfirst : path / m.basis ^ below.length * m.basis ^ below.length ≤ path :=
      Nat.div_mul_le_self _ _
    rw [List.reverse_append, List.reverse_singleton, List.singleton_append, follow]
    simp only [List.length_reverse, div_pow_succ_mul_add, div_mul_span hm hpath]
    rw [if_neg (by omega)]
    by_cases hself : m.basis ^ below.length ∣ path
    · -- the branch of this stage begins at the input itself
      rw [Nat.div_mul_cancel hself, hpos]
      by_cases heq : level = below.length
      · rw [if_pos (by rw [heq])]
      · rw [if_neg (by simp [heq])]
        apply ih (by omega) hbelow (by omega)
    · -- it begins at an earlier input, which is not the last one
      have hne : path / m.basis ^ below.length * m.basis ^ below.length ≠ path :=
        fun h => hself (Dvd.intro_left _ h)
      have hpos : 0 < below.length := by
        by_contra hzero
        simp [Nat.eq_zero_of_not_pos hzero] at hself
      rw [position_of_not_last hm (by omega), if_neg (by simp; omega)]
      have hlt : level ≠ below.length := fun h => hself (h ▸ hdvd)
      apply ih (by omega) hbelow (by omega)

/-- The digits of an input lead to the input. -/
theorem follow_reverse_digits (hm : m.Sound) {path : Nat} (hpath : path < m.size) :
  m.follow 0 (m.digits m.levels path).reverse = some path
  := by
  obtain ⟨level, hpos, hlevel, -⟩ := position_spec hm hpath
  have hzero : path / m.basis ^ m.levels = 0 := by
    apply Nat.div_eq_of_lt
    have := hm.reach
    omega
  have h := follow_of_drop_eq hm hpath (le_of_eq (length_digits m m.levels path))
  rw [length_digits, hpos, hzero] at h
  apply h hlevel rfl

end RoutingFabric.Mux.Model
