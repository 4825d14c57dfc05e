import RoutingFabric.Proofs.Mux.RoundTrip

/-!
# The configurations that a multiplexer accepts

A multiplexer accepts more strings of bits than the codes of its inputs: the stages below the one
that an input is attached to do not matter, as long as each of them holds a legal field. The main
statement is `decode_eq_some_iff`: the bits that are read as an input are the ones of the right
length, made of legal fields, that agree with the code of the input from its stage on.
-/

namespace RoutingFabric.Mux

/-! ### One bit of many -/

/-- Bits of which none is set are all unset. -/
theorem eq_replicate_of_not_mem {bits : List Bool} (h : true ∉ bits) :
  bits = List.replicate bits.length false
  := by
  apply List.eq_replicate_of_mem
  intro bit hbit
  cases bit with
  | false => rfl
  | true => exact absurd hbit h

/-- The index found in a list of bits is the one that the list sets. -/
theorem eq_oneHot_of_oneHot? {bits : List Bool} {n i : Nat} (hlength : bits.length = n)
    (h : oneHot? bits = some i) :
  i < n ∧ bits = oneHot n i
  := by
  rw [oneHot?] at h
  split at h
  · rename_i hcount
    cases h
    have hmem : true ∈ bits := by
      rw [← List.count_pos_iff]
      omega
    obtain ⟨low, high, rfl, hlow⟩ := List.eq_append_cons_of_mem hmem
    have hhigh : true ∉ high := by
      rw [List.count_append, List.count_cons_self, List.count_eq_zero_of_not_mem hlow] at hcount
      apply List.count_eq_zero.mp
      omega
    have hindex : (low ++ true :: high).idxOf true = low.length := by
      rw [List.idxOf_append_of_notMem hlow]
      simp
    rw [List.length_append, List.length_cons] at hlength
    have hlt : low.length < n := by omega
    rw [hindex]
    use hlt
    rw [oneHot_eq_append hlt, ← eq_replicate_of_not_mem hlow,
      show n - low.length - 1 = high.length by omega, ← eq_replicate_of_not_mem hhigh]
  · cases h

/-! ### Cutting bits into fields -/

/-- There are as many fields as are asked for. -/
@[simp] theorem length_fields (width : Nat) : ∀ count bits, (fields width count bits).length = count
  | 0, _ => rfl
  | count + 1, bits => by
      rw [fields, List.length_cons, length_fields width count]

/-- Fields of bits that are enough for all of them are full. -/
theorem length_of_mem_fields {width : Nat} {field : List Bool} :
    ∀ {count bits}, bits.length = count * width → field ∈ fields width count bits →
      field.length = width
  | count + 1, bits, hlength, h => by
      rw [Nat.succ_mul] at hlength
      rw [fields, List.mem_cons] at h
      rcases h with rfl | h
      · rw [List.length_take]
        omega
      · apply length_of_mem_fields _ h
        rw [List.length_drop]
        omega

/-- Fields put together are the bits that they were cut from. -/
theorem flatten_fields {width : Nat} :
    ∀ {count bits}, bits.length = count * width → (fields width count bits).flatten = bits
  | 0, bits, h => by
      rw [Nat.zero_mul] at h
      rw [List.length_eq_zero_iff.mp h]
      rfl
  | count + 1, bits, h => by
      rw [Nat.succ_mul] at h
      rw [fields, List.flatten_cons, flatten_fields, List.take_append_drop]
      rw [List.length_drop]
      omega

namespace Model

variable {m : Model}

/-! ### Legal fields -/

/-- A field that is read as a branch is the one of that branch. -/
theorem eq_field_of_branch? (hm : m.Sound) {bits : List Bool} {branch : Nat}
    (hwidth : bits.length = m.fieldWidth) (h : m.branch? bits = some branch) :
  branch < m.basis ∧ bits = m.field branch
  := by
  obtain ⟨hone, hmany, hpaired, hrows⟩ := field_eq m branch
  rw [fieldWidth] at hwidth
  rw [branch?] at h
  split at h
  · rename_i htech htop
    simp only [htech, htop] at hwidth
    rw [hone htop htech, (hm.oneLevel htop).2]
    apply eq_oneHot_of_oneHot? hwidth h
  · rename_i htech htop
    simp only [htech] at hwidth
    rw [hmany htop htech]
    split at h
    · rename_i htwo
      rw [if_pos htwo] at hwidth ⊢
      obtain ⟨bit, rfl⟩ := List.length_eq_one_iff.mp hwidth
      cases bit <;> cases h <;> simp [htwo]
    · rename_i htwo
      rw [if_neg htwo] at hwidth ⊢
      apply eq_oneHot_of_oneHot? hwidth h
  · rename_i htech htop
    simp only [htech, htop] at hwidth
    obtain ⟨row, hrow, h⟩ := Option.bind_eq_some_iff.mp h
    obtain ⟨column, hcolumn, h⟩ := Option.bind_eq_some_iff.mp h
    split at h
    · rename_i hpair
      cases h
      obtain ⟨hlt, hrow⟩ := eq_oneHot_of_oneHot? (n := m.size) (by simp; omega) hrow
      obtain ⟨-, hcolumn⟩ := eq_oneHot_of_oneHot? (n := m.size) (by simp; omega) hcolumn
      rw [hpair] at hcolumn
      rw [hpaired htop htech, (hm.oneLevel htop).2, ← hrow, ← hcolumn, List.take_append_drop]
      use hlt
    · cases h
  · rename_i htech htop
    simp only [htech] at hwidth
    obtain ⟨row, hrow, h⟩ := Option.bind_eq_some_iff.mp h
    obtain ⟨column, hcolumn, h⟩ := Option.bind_eq_some_iff.mp h
    split at h
    · rename_i hextra
      obtain ⟨hset, rfl⟩ := hextra
      cases h
      obtain ⟨hlt, hrow⟩ := eq_oneHot_of_oneHot? (n := m.basis) (by simp; omega) hrow
      obtain ⟨-, hcolumn⟩ := eq_oneHot_of_oneHot? (n := m.basis + 1) (by simp; omega) hcolumn
      obtain ⟨hbasis, hset⟩ := List.getElem?_eq_some_iff.mp hset
      rw [hrows htop htech, ← hrow, ← hcolumn, ← hset,
        ← List.drop_eq_getElem_cons hbasis, List.take_append_drop]
      use hlt
    · cases h

/-- Fields that are read as branches are the ones of these branches. -/
theorem mapM_branch?_eq_some_iff (hm : m.Sound) {parts : List (List Bool)} {branches : List Nat}
    (hwidth : ∀ part ∈ parts, part.length = m.fieldWidth) :
  parts.mapM m.branch? = some branches
    ↔ (∀ branch ∈ branches, branch < m.basis) ∧ parts = branches.map m.field
  := by
  constructor
  · intro h
    induction parts generalizing branches with
    | nil =>
      cases h
      simp
    | cons part parts ih =>
      rw [List.mapM_cons] at h
      obtain ⟨branch, hpart, h⟩ := Option.bind_eq_some_iff.mp h
      obtain ⟨rest, hrest, h⟩ := Option.bind_eq_some_iff.mp h
      cases h
      obtain ⟨hlt, hfield⟩ := eq_field_of_branch? hm (hwidth part (by simp)) hpart
      obtain ⟨hall, htail⟩ := ih (fun p hp => hwidth p (by simp [hp])) hrest
      rw [List.map_cons, ← hfield, ← htail]
      use List.forall_mem_cons.mpr ⟨hlt, hall⟩
  · rintro ⟨hlt, rfl⟩
    apply mapM_branch?_map_field hm hlt

/-- Legal fields are the ones of some branches. -/
theorem exists_branches_iff {parts : List (List Bool)} :
  (∀ part ∈ parts, ∃ branch < m.basis, part = m.field branch)
    ↔ ∃ branches : List Nat, (∀ branch ∈ branches, branch < m.basis) ∧ parts = branches.map m.field
  := by
  constructor
  · intro h
    induction parts with
    | nil => exact ⟨[], by simp⟩
    | cons part parts ih =>
      obtain ⟨branch, hlt, rfl⟩ := h part (by simp)
      obtain ⟨branches, hall, rfl⟩ := ih fun p hp => h p (by simp [hp])
      use branch :: branches
      rw [List.forall_mem_cons]
      use ⟨hlt, hall⟩
      rfl
  · rintro ⟨branches, hall, rfl⟩ part hpart
    obtain ⟨branch, hbranch, rfl⟩ := List.mem_map.mp hpart
    use branch, hall branch hbranch

/-- Branches have one field each. -/
theorem field_injOn (hm : m.Sound) {branches branches' : List Nat}
    (h : ∀ branch ∈ branches, branch < m.basis) (h' : ∀ branch ∈ branches', branch < m.basis)
    (heq : branches.map m.field = branches'.map m.field) :
  branches = branches'
  := by
  have hread := mapM_branch?_map_field hm h
  rw [heq, mapM_branch?_map_field hm h'] at hread
  exact (Option.some.inj hread).symm

/-! ### Following branches -/

/-- Branches that lead to an input from a branch of the stage above are the digits of the input from
the stage on that it is attached to, and the branch above is the digit of that stage. -/
theorem digits_of_follow (hm : m.Sound) {above path : Nat} {branches : List Nat}
    (hbranches : ∀ branch ∈ branches, branch < m.basis)
    (h : m.follow above branches.reverse = some path) :
  path < m.size ∧ above = path / m.basis ^ branches.length
    ∧ (m.position path).level < branches.length
    ∧ branches.drop (m.position path).level
      = (m.digits branches.length path).drop (m.position path).level
  := by
  induction branches using List.reverseRecOn generalizing above with
  | nil => cases h
  | append_singleton below branch ih =>
    have hbranch := hbranches branch (by simp)
    rw [List.reverse_append, List.reverse_singleton, List.singleton_append, follow] at h
    simp only [List.length_reverse] at h
    have hstage : path < m.size ∧ above * m.basis + branch = path / m.basis ^ below.length
        ∧ (m.position path).level ≤ below.length
        ∧ below.drop (m.position path).level
          = (m.digits below.length path).drop (m.position path).level := by
      split at h
      · cases h
      split at h
      · -- the input is attached to the branch of this stage
        rename_i hsize hpos
        cases h
        have hpath := Nat.not_le.mp hsize
        obtain ⟨level, hspec, -⟩ := position_spec hm hpath
        obtain ⟨rfl, hoffset⟩ := Position.mk.inj (hspec.symm.trans hpos)
        rw [hspec]
        use hpath, hoffset.symm, le_refl _
        rw [List.drop_length, List.drop_eq_nil_of_le (by simp)]
      · obtain ⟨hpath, hbelow, hlevel, hdrop⟩ :=
          ih (fun b hb => hbranches b (by simp [hb])) h
        use hpath, hbelow, hlevel.le, hdrop
    obtain ⟨hpath, hbelow, hlevel, hdrop⟩ := hstage
    rw [List.length_append, List.length_singleton, pow_succ, ← Nat.div_div_eq_div_mul, ← hbelow,
      digits_succ, ← hbelow, List.drop_append_of_le_length hlevel,
      List.drop_append_of_le_length (by rwa [length_digits]), hdrop, Nat.mul_comm above,
      Nat.mul_add_mod, Nat.mod_eq_of_lt hbranch, Nat.mul_add_div (by omega),
      Nat.div_eq_of_lt hbranch]
    use hpath, rfl, by omega

/-- Branches of all stages lead to an input exactly if they are its digits from the stage on that
it is attached to. -/
theorem follow_eq_some_iff (hm : m.Sound) {branches : List Nat} {path : Nat}
    (hbranches : ∀ branch ∈ branches, branch < m.basis) (hlength : branches.length = m.levels) :
  m.follow 0 branches.reverse = some path
    ↔ path < m.size ∧ branches.drop (m.position path).level
      = (m.digits m.levels path).drop (m.position path).level
  := by
  constructor
  · intro h
    obtain ⟨hpath, -, -, hdrop⟩ := digits_of_follow hm hbranches h
    rw [hlength] at hdrop
    use hpath, hdrop
  · rintro ⟨hpath, hdrop⟩
    obtain ⟨level, hpos, hlevel, -⟩ := position_spec hm hpath
    have hzero : path / m.basis ^ branches.length = 0 := by
      apply Nat.div_eq_of_lt
      have := hm.reach
      rw [hlength]
      omega
    rw [← hzero]
    apply follow_of_drop_eq hm hpath (by omega)
    · rw [hpos, hlength]
      apply hlevel
    · rw [hlength, hdrop]

/-! ### Accepted configurations -/

/-- The fields of all stages in a string of configuration bits, the one next to the inputs
first. -/
def stageFields (m : Model) (bits : ConfigBits) : List (List Bool) :=
  fields m.fieldWidth m.levels bits.toList

/-- A string of configuration bits that leads to an input: each stage holds a legal field, and from
the stage on that the input is attached to, it is the field that selects the input. -/
structure LeadsTo (m : Model) (bits : ConfigBits) (path : Nat) : Prop where
  input : path < m.size
  length : m.confBitCount = .ok bits.length
  legal : ∀ field ∈ m.stageFields bits, ∃ branch < m.basis, field = m.field branch
  agrees : ∃ code, m.encode path = .ok code
    ∧ (m.stageFields bits).drop (m.position path).level
      = (m.stageFields code).drop (m.position path).level

/-- Where the fields of all stages are those of branches, there is a branch for each stage. -/
theorem length_of_stageFields {bits : ConfigBits} {branches : List Nat}
    (h : m.stageFields bits = branches.map m.field) :
  branches.length = m.levels
  := by
  rw [← List.length_map, ← h, stageFields, length_fields]

/-- Bits are read as an input exactly if they are enough, and made of the fields of branches that
lead to the input. -/
theorem decodeBits_eq_some_iff (hm : m.Sound) {bits : ConfigBits} {path : Nat} :
  m.decodeBits bits.toList = some path
    ↔ bits.length = m.confBits ∧ ∃ branches : List Nat, (∀ branch ∈ branches, branch < m.basis)
      ∧ m.stageFields bits = branches.map m.field ∧ m.follow 0 branches.reverse = some path
  := by
  rw [decodeBits]
  by_cases hlength : bits.toList.length = m.confBits
  · have hwidth : ∀ part ∈ m.stageFields bits, part.length = m.fieldWidth :=
      fun _ => length_of_mem_fields hlength
    rw [if_pos hlength]
    constructor
    · intro h
      obtain ⟨branches, hread, hfollow⟩ := Option.bind_eq_some_iff.mp h
      obtain ⟨hall, hfields⟩ := (mapM_branch?_eq_some_iff hm hwidth).mp hread
      use hlength, branches
    · rintro ⟨-, branches, hall, hfields, hfollow⟩
      apply Option.bind_eq_some_iff.mpr
      use branches, (mapM_branch?_eq_some_iff hm hwidth).mpr ⟨hall, hfields⟩
  · rw [if_neg hlength]
    constructor
    · intro h
      cases h
    · rintro ⟨h, -⟩
      exact absurd h hlength

/-- Bits lead to an input exactly if they are enough, and made of the fields of branches that lead
to the input. -/
theorem leadsTo_iff (hm : m.Sound) (hcount : m.confBitCount = .ok m.confBits)
    (hencode : ∀ path < m.size, m.encode path = .ok ⟨m.code path⟩)
    {bits : ConfigBits} {path : Nat} :
  m.LeadsTo bits path
    ↔ bits.length = m.confBits ∧ ∃ branches : List Nat, (∀ branch ∈ branches, branch < m.basis)
      ∧ m.stageFields bits = branches.map m.field ∧ m.follow 0 branches.reverse = some path
  := by
  have hdigits : ∀ digit ∈ m.digits m.levels path, digit < m.basis :=
    fun _ => lt_basis_of_mem_digits hm
  constructor
  · rintro ⟨hpath, hlength, hlegal, code, hcode, hagrees⟩
    obtain ⟨branches, hall, hfields⟩ := exists_branches_iff.mp hlegal
    cases (hencode path hpath).symm.trans hcode
    rw [hcount] at hlength
    rw [hfields, stageFields, fields_code, ← List.map_drop, ← List.map_drop] at hagrees
    use (Except.ok.inj hlength).symm, branches, hall, hfields
    rw [follow_eq_some_iff hm hall (length_of_stageFields hfields)]
    use hpath
    apply field_injOn hm _ _ hagrees
    · intro branch hbranch
      apply hall branch (List.mem_of_mem_drop hbranch)
    · intro digit hdigit
      apply hdigits digit (List.mem_of_mem_drop hdigit)
  · rintro ⟨hlength, branches, hall, hfields, hfollow⟩
    obtain ⟨hpath, hdrop⟩ := (follow_eq_some_iff hm hall (length_of_stageFields hfields)).mp hfollow
    constructor
    case input => exact hpath
    case length => rw [hcount, hlength]
    case legal =>
      apply exists_branches_iff.mpr
      use branches, hall, hfields
    case agrees =>
      use ⟨m.code path⟩, hencode path hpath
      rw [hfields, stageFields, fields_code, ← List.map_drop, ← List.map_drop, hdrop]

/-- The topology of a model that is built with few enough stages is bounded. -/
theorem bounded_of_build {size : Nat} {circuit : Circuit}
    (h : Model.build size circuit = .ok m) (hlevels : m.levels < exponentLimit) :
  circuit.topology.Bounded
  := by
  obtain ⟨-, -, hstages, -, -⟩ := build_eq_ok_iff.mp h
  rintro levels htop
  rcases stages_eq_ok hstages with
      ⟨hother, -⟩ | ⟨hother, -⟩ | ⟨hone, -⟩ | ⟨hmany, htwo, -⟩
  · cases htop.symm.trans hother
  · cases htop.symm.trans hother
  · cases htop.symm.trans hone
    decide
  · cases htop.symm.trans hmany
    use by omega

/-- Bits that lead to an input attached to the first stage are the code of the input. -/
theorem encode_of_leadsTo (hcount : m.confBitCount = .ok m.confBits)
    {bits : ConfigBits} {path : Nat} (h : m.LeadsTo bits path)
    (hlevel : (m.position path).level = 0) (hencode : m.encode path = .ok ⟨m.code path⟩) :
  m.encode path = .ok bits
  := by
  obtain ⟨-, hlength, -, code, hcode, hagrees⟩ := h
  cases hencode.symm.trans hcode
  rw [hcount] at hlength
  rw [hlevel, List.drop_zero, List.drop_zero] at hagrees
  have hbits : bits.toList = m.code path := by
    rw [← flatten_fields (Except.ok.inj hlength).symm, ← flatten_fields (length_code m path)]
    exact congrArg List.flatten hagrees
  rw [hencode, ← hbits]

/-- Exactly the bits that lead to an input are read as that input, and where the input is attached
to the first stage these are no other than its code. -/
theorem decode_eq_some_iff {size : Nat} {circuit : Circuit} (h : Model.build size circuit = .ok m)
    (hlevels : m.levels < exponentLimit) (bits : ConfigBits) (path : Nat) :
  (m.decode bits = .ok (some path) ↔ m.LeadsTo bits path)
    ∧ (m.decode bits = .ok (some path) → (m.position path).level = 0 → m.encode path = .ok bits)
  := by
  have ht := bounded_of_build h hlevels
  have hm := sound_of_build ht h
  have hcount := confBitCount_of_build ht h
  obtain ⟨-, -, -, hsize, -⟩ := build_eq_ok_iff.mp h
  have hencode : ∀ path < m.size, m.encode path = .ok ⟨m.code path⟩ := by
    intro path hpath
    rw [hsize] at hpath
    apply encode_of_build ht h hpath
  have hdecode : m.decode bits = .ok (m.decodeBits bits.toList) := by
    rw [decode, hcount]
    rfl
  have hiff : m.decode bits = .ok (some path) ↔ m.LeadsTo bits path := by
    rw [hdecode, Except.ok.injEq, decodeBits_eq_some_iff hm, leadsTo_iff hm hcount hencode]
  use hiff
  intro hread hlevel
  have hleads := hiff.mp hread
  apply encode_of_leadsTo hcount hleads hlevel (hencode path hleads.input)

/-- Two stages below the last of five inputs do not matter: its code sets one bit, and it is also
reached by bits that are all set. -/
theorem decode_past_two_stages :
  Model.build 5 ⟨.tree, .passTransistor⟩ = .ok ⟨5, ⟨.tree, .passTransistor⟩, 3, 2⟩
    ∧ 3 < exponentLimit
    ∧ encode ⟨5, ⟨.tree, .passTransistor⟩, 3, 2⟩ 4 = .ok ⟨[false, false, true]⟩
    ∧ decode ⟨5, ⟨.tree, .passTransistor⟩, 3, 2⟩ ⟨[true, true, true]⟩ = .ok (some 4)
    ∧ LeadsTo ⟨5, ⟨.tree, .passTransistor⟩, 3, 2⟩ ⟨[true, true, true]⟩ 4
  := by
  have hbuild : Model.build 5 ⟨.tree, .passTransistor⟩
      = .ok ⟨5, ⟨.tree, .passTransistor⟩, 3, 2⟩ := by
    decide +kernel
  have hlevels : 3 < exponentLimit := by
    decide
  have hdecode : decode ⟨5, ⟨.tree, .passTransistor⟩, 3, 2⟩ ⟨[true, true, true]⟩
      = .ok (some 4) := by
    decide +kernel
  use hbuild, hlevels, by decide +kernel, hdecode
  apply (decode_eq_some_iff hbuild hlevels _ _).1.mp hdecode

end Model

end RoutingFabric.Mux
