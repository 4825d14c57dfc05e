import RoutingFabric.Bitstream
import RoutingFabric.Proofs.Mux.Library
import RoutingFabric.Proofs.Mux.RoundTrip
import RoutingFabric.Proofs.Outcome

/-!
# Chunks of a bitstream

The bits of multiplexers that stand one after another are cut apart again, one chunk for each
multiplexer, and each chunk is read back as the input that its multiplexer selects.
-/

namespace RoutingFabric.Bitstream

open Mux

/-! ### Reading chunks back -/

/-- The bits are the chunks of multiplexers of some circuits, one after another and nothing
else. Each chunk has the number of bits of its model, which reads the selected input back. -/
def Decodes : List (Circuit × MuxSetting) → List Bool → Prop
  | [], bits => bits = []
  | (circuit, s) :: rest, bits =>
    ∃ m chunk more, Model.build s.size circuit = .ok m ∧ bits = chunk ++ more
      ∧ m.confBitCount = .ok chunk.length ∧ m.decode ⟨chunk⟩ = .ok (some s.path)
      ∧ Decodes rest more

/-- The multiplexer can be built and has the input that it selects. -/
structure Encodable (s : MuxSetting) : Prop where
  two_le : 2 ≤ s.size
  fits : positionBytes * s.size ≤ tableLimit
  path : s.path < s.size

/-- The number of bits of a multiplexer. -/
def bitCount (circuit : Circuit) (s : MuxSetting) : Nat :=
  match Model.build s.size circuit with
  | .ok m => m.confBits
  | .error _ => 0

/-- The bits of a multiplexer. -/
def codeOf (circuit : Circuit) (s : MuxSetting) : List Bool :=
  match Model.build s.size circuit with
  | .ok m => m.code s.path
  | .error _ => []

variable {circuit : Circuit}

/-- A multiplexer that can be encoded has a model. -/
theorem Encodable.exists_build {s : MuxSetting} (h : Encodable s)
    (ht : circuit.topology.Bounded) :
  ∃ m, Model.build s.size circuit = .ok m
  := by
  obtain ⟨levels, basis, hstages⟩ := exists_stages ht s.size
  use ⟨s.size, circuit, levels, basis⟩
  apply Model.build_eq_ok_iff.mpr
  use h.two_le, h.fits, hstages

/-- A multiplexer has as many bits as it is said to have. -/
theorem length_codeOf (circuit : Circuit) (s : MuxSetting) :
  (codeOf circuit s).length = bitCount circuit s
  := by
  rw [codeOf, bitCount]
  split
  · apply Model.length_code
  · rfl

/-- The bits of multiplexers are read back. -/
theorem decodes_codeOf {ms : List MuxSetting} (h : ∀ s ∈ ms, Encodable s)
    (ht : circuit.topology.Bounded) :
  Decodes (ms.map fun s => (circuit, s)) (ms.flatMap (codeOf circuit))
  := by
  induction ms with
  | nil => rfl
  | cons s ms ih =>
    have hs := h s List.mem_cons_self
    obtain ⟨m, hm⟩ := hs.exists_build ht
    have hcode : codeOf circuit s = m.code s.path := by
      rw [codeOf, hm]
    have hcount := Model.confBitCount_of_build ht hm
    use m, codeOf circuit s, ms.flatMap (codeOf circuit), hm, rfl
    constructor
    · rw [hcode, Model.length_code, hcount]
    constructor
    · rw [Model.decode, hcount, hcode, ok_bind]
      obtain ⟨hsize, -⟩ := Library.size_circuit_of_build hm
      rw [Model.decodeBits_code (Model.sound_of_build ht hm) (by rw [hsize]; apply hs.path)]
      rfl
    · apply ih
      intro s' hs'
      apply h s' (List.mem_cons_of_mem s hs')

/-- Chunks that follow others are read back after them. -/
theorem Decodes.append {ms ms' : List (Circuit × MuxSetting)} {bits bits' : List Bool}
    (h : Decodes ms bits) (h' : Decodes ms' bits') :
  Decodes (ms ++ ms') (bits ++ bits')
  := by
  induction ms generalizing bits with
  | nil =>
    rw [Decodes] at h
    rw [h]
    apply h'
  | cons m ms ih =>
    obtain ⟨model, chunk, more, hmodel, rfl, hcount, hdecode, hmore⟩ := h
    use model, chunk, more ++ bits', hmodel, List.append_assoc _ _ _, hcount, hdecode
    apply ih hmore

/-- The chunks of many lists of multiplexers are read back one list after another. -/
theorem Decodes.flatMap {α β : Type} {xs : List α} {ys : List β}
    {f : α → List (Circuit × MuxSetting)} {bits : β → List Bool}
    (h : List.Forall₂ (fun x y => Decodes (f x) (bits y)) xs ys) :
  Decodes (xs.flatMap f) (ys.flatMap bits)
  := by
  induction h with
  | nil => rfl
  | cons hx _ ih => apply hx.append ih

/-! ### Encoding chunks -/

/-- Multiplexers that can be encoded are. -/
theorem exists_encodeAll {ms : List MuxSetting} (h : ∀ s ∈ ms, Encodable s)
    (ht : circuit.topology.Bounded) {lib : Library} (hlib : lib.Sound) :
  ∃ lib', encodeAll circuit lib ms = .ok (lib', ⟨ms.flatMap (codeOf circuit)⟩) ∧ lib'.Sound
  := by
  induction ms generalizing lib with
  | nil => use lib, rfl
  | cons s ms ih =>
    have hs := h s List.mem_cons_self
    obtain ⟨m, hm⟩ := hs.exists_build ht
    obtain ⟨hlib', hbits⟩ := hlib.encode s.size circuit s.path
    rw [hm, ok_bind, Model.encode_of_build ht hm hs.path] at hbits
    obtain ⟨lib'', hrest, hlib''⟩ := ih (fun s' hs' => h s' (List.mem_cons_of_mem s hs')) hlib'
    use lib''
    constructor
    · rw [encodeAll]
      simp only [hbits, ok_bind, hrest, codeOf, hm, List.flatMap_cons]
      rfl
    · apply hlib''

/-- Multiplexers that can be encoded are measured. -/
theorem exists_measure {ms : List MuxSetting} (h : ∀ s ∈ ms, Encodable s)
    (ht : circuit.topology.Bounded) {lib : Library} (hlib : lib.Sound) {bits : Nat}
    (hbits : bits + (ms.map (bitCount circuit)).sum < wordLimit) (reserved : Nat) :
  ∃ lib' reserved', Box.measure circuit lib bits reserved ms
      = .ok (lib', bits + (ms.map (bitCount circuit)).sum, reserved')
    ∧ lib'.Sound
  := by
  induction ms generalizing lib bits reserved with
  | nil => use lib, reserved, rfl
  | cons s ms ih =>
    rw [List.map_cons, List.sum_cons] at hbits ⊢
    obtain ⟨m, hm⟩ := (h s List.mem_cons_self).exists_build ht
    obtain ⟨hlib', hget⟩ := hlib.get s.size circuit
    have hcount : bitCount circuit s = m.confBits := by
      rw [bitCount, hm]
    have hword : word (bits + m.confBits) = .ok (bits + m.confBits) := by
      apply word_of_lt
      omega
    obtain ⟨lib'', reserved', hrest, hlib''⟩ := ih
      (fun s' hs' => h s' (List.mem_cons_of_mem s hs')) hlib'
      (show bits + m.confBits + (ms.map (bitCount circuit)).sum < wordLimit by omega)
      (max reserved m.reservedBits)
    use lib'', reserved'
    constructor
    · rw [Box.measure]
      simp only [hget, hm, ok_bind, Model.confBitCount_of_build ht hm, hword, hrest, hcount,
        Nat.add_assoc]
    · apply hlib''

/-- Blocks of a list are encoded one after another if each of them can be, whatever models there
are. -/
theorem exists_collect {β : Type} {encode : Library → β → Outcome (Library × BlockBits)}
    {P : β → BlockBits → Prop} {xs : List β}
    (h : ∀ x ∈ xs, ∀ lib : Library, lib.Sound →
      ∃ lib' bits, encode lib x = .ok (lib', bits) ∧ lib'.Sound ∧ P x bits)
    {lib : Library} (hlib : lib.Sound) :
  ∃ lib' blocks, collect encode lib xs = .ok (lib', blocks) ∧ lib'.Sound
    ∧ List.Forall₂ P xs blocks
  := by
  induction xs generalizing lib with
  | nil => use lib, [], rfl, hlib, List.Forall₂.nil
  | cons x xs ih =>
    obtain ⟨lib', bits, hx, hlib', hP⟩ := h x List.mem_cons_self lib hlib
    obtain ⟨lib'', blocks, hrest, hlib'', hall⟩ :=
      ih (fun y hy => h y (List.mem_cons_of_mem x hy)) hlib'
    use lib'', bits :: blocks
    constructor
    · simp only [collect, hx, ok_bind, hrest]
      rfl
    · use hlib'', List.Forall₂.cons hP hall

end RoutingFabric.Bitstream
