import Mathlib.Data.List.Dedup
import RoutingFabric.Mux.Library
import RoutingFabric.Proofs.Mux.Stages

/-!
# Multiplexer libraries are transparent

A library that holds nothing but models that were built gives the model that would be built
anew, and stays such a library. So after any requests each was answered as without a library, and
the library holds one model for each size and circuit that was asked for and that has one, also
where the input to select did not exist.
-/

namespace RoutingFabric.Mux.Library

/-- The models of the library are what would be built anew. -/
def Sound (lib : Library) : Prop := ∀ m ∈ lib.models, Model.build m.size m.circuit = .ok m

/-- A library without models is sound. -/
theorem sound_empty : empty.Sound := by
  intro m hm
  cases hm

/-- A model that is found is the one that would be built. -/
theorem Sound.build_of_find? {lib : Library} (h : lib.Sound) {size : Nat} {circuit : Circuit}
    {m : Model} (hm : lib.find? size circuit = some m) :
  Model.build size circuit = .ok m
  := by
  have hmem := h m (List.mem_of_find?_eq_some hm)
  have hkey := List.find?_some hm
  simp only [decide_eq_true_eq] at hkey
  rw [← hkey.1, ← hkey.2]
  apply hmem

/-- A model comes with its size and its circuit. -/
theorem size_circuit_of_build {size : Nat} {circuit : Circuit} {m : Model}
    (h : Model.build size circuit = .ok m) :
  m.size = size ∧ m.circuit = circuit
  := by
  obtain ⟨-, -, -, hsize, hcircuit⟩ := Model.build_eq_ok_iff.mp h
  exact ⟨hsize, hcircuit⟩

/-- A sound library gives the model that would be built, and stays sound. -/
theorem Sound.get {lib : Library} (h : lib.Sound) (size : Nat) (circuit : Circuit) :
  (lib.get size circuit).1.Sound ∧ (lib.get size circuit).2 = Model.build size circuit
  := by
  rw [Library.get]
  split
  · rename_i m hm
    exact ⟨h, (h.build_of_find? hm).symm⟩
  · split
    · rename_i m hm
      constructor
      · intro m' hm'
        rcases List.mem_cons.mp hm' with rfl | hm'
        · obtain ⟨hsize, hcircuit⟩ := size_circuit_of_build hm
          rw [hsize, hcircuit, hm]
        · apply h m' hm'
      · rw [hm]
    · rename_i e he
      exact ⟨h, he.symm⟩

/-- A sound library encodes with the model that would be built, and stays sound. -/
theorem Sound.encode {lib : Library} (h : lib.Sound) (size : Nat) (circuit : Circuit) (path : Nat) :
  (lib.encode size circuit path).1.Sound
    ∧ (lib.encode size circuit path).2 = (Model.build size circuit >>= fun m => m.encode path)
  := by
  obtain ⟨hsound, hmodel⟩ := h.get size circuit
  rw [Library.encode]
  rw [← hmodel]
  split
  · rename_i lib' m hget
    rw [hget] at hsound ⊢
    exact ⟨hsound, rfl⟩
  · rename_i lib' e hget
    rw [hget] at hsound ⊢
    exact ⟨hsound, rfl⟩

/-! ### Runs of requests -/

/-- A request to a library: for a model, or for the bits that select an input of it. -/
inductive Request where
  | model (size : Nat) (circuit : Circuit)
  | bits (size : Nat) (circuit : Circuit) (path : Nat)

/-- The size and the circuit of the multiplexer that is asked for. -/
def Request.key : Request → Nat × Circuit
  | .model size circuit => (size, circuit)
  | .bits size circuit _ => (size, circuit)

/-- What comes of a request. -/
inductive Answer where
  | model (outcome : Outcome Model)
  | bits (outcome : Outcome ConfigBits)

/-- What comes of a request without a library. -/
def Request.fresh : Request → Answer
  | .model size circuit => .model (Model.build size circuit)
  | .bits size circuit path => .bits (Model.build size circuit >>= fun m => m.encode path)

/-- The library serves a request. -/
def serve (lib : Library) : Request → Library × Answer
  | .model size circuit => ((lib.get size circuit).1, .model (lib.get size circuit).2)
  | .bits size circuit path =>
    ((lib.encode size circuit path).1, .bits (lib.encode size circuit path).2)

/-- The library serves requests, one after another. -/
def serveAll (lib : Library) : List Request → Library × List Answer
  | [] => (lib, [])
  | r :: rs => (((lib.serve r).1.serveAll rs).1, (lib.serve r).2 :: ((lib.serve r).1.serveAll rs).2)

/-- The size and the circuit of a model. -/
def keyOf (m : Model) : Nat × Circuit := (m.size, m.circuit)

/-- The library holds one model for each of the sizes and circuits that has a model, and no
other. -/
structure Holds (lib : Library) (keys : List (Nat × Circuit)) : Prop where
  unique : (lib.models.map keyOf).Nodup
  mem_iff : ∀ m, m ∈ lib.models ↔ ∃ k ∈ keys, Model.build k.1 k.2 = .ok m

variable {lib : Library} {keys : List (Nat × Circuit)}

/-- A library without models holds none. -/
theorem holds_empty : empty.Holds [] := by
  constructor
  · apply List.nodup_nil
  · intro m
    simp [empty]

/-- A model comes with the size and the circuit that it was built for. -/
theorem keyOf_of_build {k : Nat × Circuit} {m : Model} (h : Model.build k.1 k.2 = .ok m) :
  keyOf m = k
  := by
  obtain ⟨hsize, hcircuit⟩ := size_circuit_of_build h
  rw [keyOf, hsize, hcircuit]

/-- The models that a library holds are what would be built anew. -/
theorem Holds.sound (h : lib.Holds keys) : lib.Sound := by
  intro m hm
  obtain ⟨k, -, hk⟩ := (h.mem_iff m).mp hm
  obtain ⟨hsize, hcircuit⟩ := size_circuit_of_build hk
  rw [hsize, hcircuit, hk]

/-- A model of a size and a circuit that the library does not find is not in it. -/
theorem keyOf_ne_of_find? {size : Nat} {circuit : Circuit} (h : lib.find? size circuit = none) :
  ∀ m ∈ lib.models, keyOf m ≠ (size, circuit)
  := by
  intro m hm hkey
  have hnone := List.find?_eq_none.mp h m hm
  simp_all [keyOf]

/-- A library that holds the model of a size and a circuit, if there is one, stays as it is when it
is asked for it. -/
theorem Holds.keep (h : lib.Holds keys) {k : Nat × Circuit}
    (hk : ∀ m, Model.build k.1 k.2 = .ok m → m ∈ lib.models) :
  lib.Holds (keys ++ [k])
  := by
  constructor
  · apply h.unique
  · intro m
    rw [h.mem_iff]
    constructor
    · rintro ⟨k', hk', hm⟩
      exact ⟨k', List.mem_append_left _ hk', hm⟩
    · rintro ⟨k', hk', hm⟩
      rcases List.mem_append.mp hk' with hk' | hk'
      · exact ⟨k', hk', hm⟩
      · obtain rfl := List.mem_singleton.mp hk'
        apply (h.mem_iff m).mp (hk m hm)

/-- A model of a size and a circuit that the library has none of is added to it. -/
theorem Holds.add (h : lib.Holds keys) {k : Nat × Circuit} {m : Model}
    (hm : Model.build k.1 k.2 = .ok m) (hfresh : ∀ m' ∈ lib.models, keyOf m' ≠ k) :
  Holds ⟨m :: lib.models⟩ (keys ++ [k])
  := by
  constructor
  · rw [List.map_cons, keyOf_of_build hm, List.nodup_cons]
    constructor
    · intro hmem
      obtain ⟨m', hm', hkey'⟩ := List.mem_map.mp hmem
      apply hfresh m' hm' hkey'
    · apply h.unique
  · intro m'
    rw [List.mem_cons, h.mem_iff]
    constructor
    · rintro (rfl | ⟨k', hk', hm'⟩)
      · exact ⟨k, by simp, hm⟩
      · exact ⟨k', List.mem_append_left _ hk', hm'⟩
    · rintro ⟨k', hk', hm'⟩
      rcases List.mem_append.mp hk' with hk' | hk'
      · right
        exact ⟨k', hk', hm'⟩
      · left
        obtain rfl := List.mem_singleton.mp hk'
        rw [hm] at hm'
        cases hm'
        rfl

/-- Asking for a model adds it to the library, unless it holds it or there is none. -/
theorem Holds.get (h : lib.Holds keys) (size : Nat) (circuit : Circuit) :
  (lib.get size circuit).1.Holds (keys ++ [(size, circuit)])
  := by
  rw [Library.get]
  split
  · rename_i m hm
    apply h.keep
    intro m' hm'
    rw [h.sound.build_of_find? hm] at hm'
    cases hm'
    apply List.mem_of_find?_eq_some hm
  · rename_i hnone
    split
    · rename_i m hm
      apply h.add hm (keyOf_ne_of_find? hnone)
    · rename_i e he
      apply h.keep
      intro m hm
      rw [he] at hm
      cases hm

/-- Asking for bits leaves the library as asking for the model does. -/
theorem encode_fst (lib : Library) (size : Nat) (circuit : Circuit) (path : Nat) :
  (lib.encode size circuit path).1 = (lib.get size circuit).1
  := by
  rw [Library.encode]
  split
  · rename_i hget
    rw [hget]
  · rename_i hget
    rw [hget]

/-- A request is answered as without a library, and its model is held from then on. -/
theorem Holds.serve (h : lib.Holds keys) (r : Request) :
  (lib.serve r).1.Holds (keys ++ [r.key]) ∧ (lib.serve r).2 = r.fresh
  := by
  cases r with
  | model size circuit =>
    obtain ⟨-, hmodel⟩ := h.sound.get size circuit
    constructor
    · apply h.get
    · rw [Library.serve, hmodel]
      rfl
  | bits size circuit path =>
    obtain ⟨-, hbits⟩ := h.sound.encode size circuit path
    constructor
    · rw [Library.serve, encode_fst]
      apply h.get
    · rw [Library.serve, hbits]
      rfl

/-- Requests are answered as without a library, and their models are held from then on. -/
theorem Holds.serveAll (h : lib.Holds keys) (rs : List Request) :
  (lib.serveAll rs).1.Holds (keys ++ rs.map Request.key)
    ∧ (lib.serveAll rs).2 = rs.map Request.fresh
  := by
  induction rs generalizing lib keys with
  | nil =>
    rw [List.map_nil, List.append_nil]
    exact ⟨h, rfl⟩
  | cons r rs ih =>
    obtain ⟨hserve, hanswer⟩ := h.serve r
    obtain ⟨hholds, hanswers⟩ := ih hserve
    constructor
    · rw [List.map_cons, List.append_cons]
      apply hholds
    · rw [Library.serveAll, hanswer, hanswers]
      rfl

/-- A library holds as many models as there are sizes and circuits asked for that have one. -/
theorem Holds.size_eq (h : lib.Holds keys) :
  lib.size = (keys.dedup.filter fun k => (Model.build k.1 k.2).isOk).length
  := by
  have hperm : (lib.models.map keyOf).Perm
      (keys.dedup.filter fun k => (Model.build k.1 k.2).isOk) := by
    apply (List.perm_ext_iff_of_nodup h.unique (keys.nodup_dedup.filter _)).mpr
    intro k
    rw [List.mem_filter, List.mem_dedup, List.mem_map]
    constructor
    · rintro ⟨m, hm, rfl⟩
      obtain ⟨k, hk, hbuild⟩ := (h.mem_iff m).mp hm
      rw [keyOf_of_build hbuild, hbuild]
      exact ⟨hk, rfl⟩
    · rintro ⟨hk, hok⟩
      cases hbuild : Model.build k.1 k.2 with
      | error e =>
        rw [hbuild] at hok
        cases hok
      | ok m => exact ⟨m, (h.mem_iff m).mpr ⟨k, hk, hbuild⟩, keyOf_of_build hbuild⟩
  rw [Library.size, ← hperm.length_eq, List.length_map]

/-- After any requests to a library that held nothing, each was answered as without a library. The
library holds one model for each size and circuit that was asked for and that has a model, no
other, and counts them. -/
theorem transparent_serveAll (rs : List Request) :
  (empty.serveAll rs).2 = rs.map Request.fresh
    ∧ (empty.serveAll rs).1.Holds (rs.map Request.key)
    ∧ (empty.serveAll rs).1.size
      = ((rs.map Request.key).dedup.filter fun k => (Model.build k.1 k.2).isOk).length
  := by
  obtain ⟨hholds, hanswers⟩ := holds_empty.serveAll rs
  exact ⟨hanswers, hholds, hholds.size_eq⟩

/-- Three requests of which one fails to encode, one repeats it, and one has no model leave one
model. -/
example :
    (empty.serveAll [.bits 4 {} 9, .model 4 {}, .bits 1 {} 0]).1.models.map keyOf = [(4, {})] := by
  decide

end RoutingFabric.Mux.Library
