import RoutingFabric.Proofs.Mux.Fields

/-!
# Reading multiplexer codes back

The code of an input is cut into the fields of its digits, and the digits lead to the input. The
bits of a model that is built always fit a string of configuration bits, so that every input of
it can be encoded. The main statement is `decode_encode`: what is encoded has as many bits as the
model says and is read back as the input.
-/

namespace RoutingFabric.Mux.Model

variable {m : Model}

/-! ### The code of an input -/

/-- Fields of one width that stand one after another are cut apart again. -/
theorem fields_flatMap {α : Type} (width : Nat) (f : α → List Bool) (xs : List α)
    (h : ∀ x, (f x).length = width) :
  fields width xs.length (xs.flatMap f) = xs.map f
  := by
  induction xs with
  | nil => rfl
  | cons x xs ih =>
    rw [List.length_cons, fields, List.flatMap_cons, List.take_left' (h x),
      List.drop_left' (h x), ih]
    rfl

/-- Fields of one width take as many bits as there are fields. -/
theorem length_flatMap_fields {α : Type} (width : Nat) (f : α → List Bool) (xs : List α)
    (h : ∀ x, (f x).length = width) :
  (xs.flatMap f).length = xs.length * width
  := by
  induction xs with
  | nil => simp
  | cons x xs ih =>
    rw [List.flatMap_cons, List.length_append, ih, h, List.length_cons, Nat.succ_mul,
      Nat.add_comm]

/-- Fields of branches are read back. -/
theorem mapM_branch?_map_field (hm : m.Sound) {branches : List Nat}
    (h : ∀ branch ∈ branches, branch < m.basis) :
  (branches.map m.field).mapM m.branch? = some branches
  := by
  induction branches with
  | nil => rfl
  | cons branch branches ih =>
    rw [List.map_cons, List.mapM_cons, branch?_field hm (h branch (by simp)),
      ih fun b hb => h b (by simp [hb])]
    rfl

/-- The code of an input has as many bits as the model says. -/
@[simp] theorem length_code (m : Model) (path : Nat) : (m.code path).length = m.confBits := by
  rw [code, length_flatMap_fields m.fieldWidth m.field _ m.length_field, length_digits, confBits]

/-- The code of an input is cut into the fields of its digits. -/
theorem fields_code (m : Model) (path : Nat) :
  fields m.fieldWidth m.levels (m.code path) = (m.digits m.levels path).map m.field
  := by
  have h := fields_flatMap m.fieldWidth m.field (m.digits m.levels path) m.length_field
  rwa [length_digits] at h

/-- The code of an input is read back as that input. -/
theorem decodeBits_code (hm : m.Sound) {path : Nat} (hpath : path < m.size) :
  m.decodeBits (m.code path) = some path
  := by
  rw [decodeBits]
  rw [if_pos (length_code m path), fields_code,
    mapM_branch?_map_field hm fun _ => lt_basis_of_mem_digits hm]
  apply follow_reverse_digits hm hpath

/-! ### The number of bits -/

/-- A field takes at most two bits more for each branch than a row and a column line. -/
theorem fieldWidth_le (hm : m.Sound) : m.fieldWidth ≤ 2 * (m.basis + 1) := by
  rw [fieldWidth]
  split
  · rename_i htop
    have := (hm.oneLevel htop).2
    omega
  · split <;> omega
  · rename_i htop
    have := (hm.oneLevel htop).2
    omega
  · apply le_refl

/-- Several stages of the least number of branches have few branches altogether. -/
theorem levels_mul_leastBasis_le {size levels : Nat} (hsize : size ≤ 2 ^ 59) (hlevels : 2 ≤ levels)
    (hbound : levels < exponentLimit) :
  levels * (2 * (leastBasis size levels + 1)) ≤ ConfigBits.capacity
  := by
  rcases Nat.lt_or_ge 2 (leastBasis size levels) with hsmall | hlarge
  · have hpow : (leastBasis size levels - 1) ^ min levels 64 < size := by
      apply pow_lt_of_lt_leastBasis <;> omega
    have hfew : min levels 64 < 59 := by
      apply (Nat.pow_lt_pow_iff_right (show 1 < 2 by omega)).mp
      calc 2 ^ min levels 64 ≤ (leastBasis size levels - 1) ^ min levels 64 :=
            Nat.pow_le_pow_left (by omega) _
        _ < 2 ^ 59 := by omega
    have hbasis : leastBasis size levels - 1 < 2 ^ 30 := by
      apply (Nat.pow_lt_pow_iff_left (show 2 ≠ 0 by omega)).mp
      calc (leastBasis size levels - 1) ^ 2
          ≤ (leastBasis size levels - 1) ^ min levels 64 :=
            Nat.pow_le_pow_right (by omega) (by omega)
        _ < (2 ^ 30) ^ 2 := by omega
    calc levels * (2 * (leastBasis size levels + 1))
        ≤ 59 * (2 * (2 ^ 30 + 2)) := Nat.mul_le_mul (by omega) (by omega)
      _ ≤ ConfigBits.capacity := by decide
  · calc levels * (2 * (leastBasis size levels + 1))
        ≤ exponentLimit * (2 * (2 + 1)) := Nat.mul_le_mul (by omega) (by omega)
      _ ≤ ConfigBits.capacity := by decide

/-- The bits of a model that is built fit a string of configuration bits. -/
theorem confBits_le_capacity {size : Nat} {circuit : Circuit} (ht : circuit.topology.Bounded)
    (h : Model.build size circuit = .ok m) :
  m.confBits ≤ ConfigBits.capacity
  := by
  have hm := sound_of_build ht h
  obtain ⟨-, htable, hstages, hsize, rfl⟩ := build_eq_ok_iff.mp h
  have hsmall : size ≤ 2 ^ 59 := by
    simp only [positionBytes, tableLimit] at htable
    omega
  apply le_trans (Nat.mul_le_mul_left m.levels (fieldWidth_le hm))
  rcases stages_eq_ok hstages with
      ⟨-, hlevels, hbasis⟩ | ⟨-, hlevels, hbasis⟩ | ⟨-, hlevels, hbasis⟩
      | ⟨htop, hlevels, -, hbasis⟩
  · rw [hlevels, hbasis, ConfigBits.capacity]
    omega
  · have := ceilLog2_le hsmall
    rw [hlevels, hbasis, ConfigBits.capacity]
    omega
  · rw [hlevels, hbasis, ConfigBits.capacity]
    omega
  · have hbound := (ht _ htop).2
    rw [hbasis, Nat.mod_eq_of_lt hbound]
    apply levels_mul_leastBasis_le hsmall hlevels hbound

/-- The number of bits of a model that is built fits a machine word. -/
theorem confBitCount_of_build {size : Nat} {circuit : Circuit} (ht : circuit.topology.Bounded)
    (h : Model.build size circuit = .ok m) :
  m.confBitCount = .ok m.confBits
  := by
  have hcapacity := confBits_le_capacity ht h
  apply word_of_lt
  rw [ConfigBits.capacity] at hcapacity
  rw [wordLimit]
  omega

/-- Every input of a model that is built is encoded as its code. -/
theorem encode_of_build {size path : Nat} {circuit : Circuit} (ht : circuit.topology.Bounded)
    (h : Model.build size circuit = .ok m) (hpath : path < size) :
  m.encode path = .ok ⟨m.code path⟩
  := by
  obtain ⟨-, -, -, rfl, -⟩ := build_eq_ok_iff.mp h
  rw [encode]
  rw [if_pos hpath, confBitCount_of_build ht h]
  simp [bind, Except.bind, confBits_le_capacity ht h]

/-- The bits that select an input are as many as the model says, and are read back as that
input. -/
theorem decode_encode {size path : Nat} {circuit : Circuit} (ht : circuit.topology.Bounded)
    (h : Model.build size circuit = .ok m) (hpath : path < size) :
  ∃ bits, m.encode path = .ok bits ∧ m.confBitCount = .ok bits.length
    ∧ m.decode bits = .ok (some path)
  := by
  have hcount := confBitCount_of_build ht h
  use ⟨m.code path⟩, encode_of_build ht h hpath
  constructor
  · rw [ConfigBits.length, length_code, hcount]
  · obtain ⟨-, -, -, hsize, -⟩ := build_eq_ok_iff.mp h
    rw [decode, hcount]
    apply congrArg Except.ok
    apply decodeBits_code (sound_of_build ht h)
    rwa [hsize]

/-- The last of five inputs skips two of the three stages of a resistive tree. -/
theorem decode_encode_last_of_five :
  Topology.Bounded .tree
    ∧ Model.build 5 ⟨.tree, .resistive⟩ = .ok ⟨5, ⟨.tree, .resistive⟩, 3, 2⟩ ∧ 4 < 5
    ∧ ∃ bits, encode ⟨5, ⟨.tree, .resistive⟩, 3, 2⟩ 4 = .ok bits
      ∧ confBitCount ⟨5, ⟨.tree, .resistive⟩, 3, 2⟩ = .ok bits.length
      ∧ decode ⟨5, ⟨.tree, .resistive⟩, 3, 2⟩ bits = .ok (some 4)
  := by
  have ht : Topology.Bounded .tree := by
    intro levels h
    cases h
  have hbuild : Model.build 5 ⟨.tree, .resistive⟩ = .ok ⟨5, ⟨.tree, .resistive⟩, 3, 2⟩ := by
    decide +kernel
  use ht, hbuild, by decide
  apply decode_encode ht hbuild (by decide)

end RoutingFabric.Mux.Model
