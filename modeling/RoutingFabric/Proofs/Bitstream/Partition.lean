import RoutingFabric.Proofs.Bitstream.Assembly
import RoutingFabric.Proofs.Bitstream.Chain

/-!
# The bits of a box are at its place in the chain

The bits of the routing boxes of a bitstream, one after another, are the bits of the chain: each box
finds its own bits in its stretch. The stretches were measured with the models of multiplexers and
the bits were encoded with them, so that both have the same length, and assembly never stops because
they differ.
-/

namespace RoutingFabric

open Mux RoutingGraph

/-- Assembly stopped because the bits of a box do not fill its stretch of the chain. -/
def Problem.IsSpanMismatch : Problem → Prop
  | .confBitSpanMismatch _ _ _ => True
  | _ => False

namespace Bitstream

/-! ### Boxes -/

variable {g : RoutingGraph} {circuit : Circuit} {lib lib' : Library}

/-- The bits that select an input are the code of the input. -/
theorem eq_code_of_encode {m : Model} {path : Nat} {bits : ConfigBits}
    (h : m.encode path = .ok bits) :
  bits = ⟨m.code path⟩
  := by
  rw [Model.encode] at h
  split at h
  · obtain ⟨count, -, h⟩ := bind_eq_ok_iff.mp h
    split at h
    · cases h
      rfl
    · cases fault_ne_ok h
  · cases fail_ne_ok h

/-- The bits of multiplexers are their codes, one after another. -/
theorem toList_of_encodeAll {ss : List MuxSetting} {bits : ConfigBits} (hlib : lib.Sound)
    (h : encodeAll circuit lib ss = .ok (lib', bits)) :
  lib'.Sound ∧ bits.toList = ss.flatMap (codeOf circuit)
  := by
  induction ss generalizing lib bits with
  | nil =>
    cases pure_eq_ok_iff.mp h
    exact ⟨hlib, rfl⟩
  | cons s ss ih =>
    obtain ⟨hsound, hencode⟩ := hlib.encode s.size circuit s.path
    rw [encodeAll] at h
    simp only [hencode, bind_eq_ok_iff] at h
    obtain ⟨first, ⟨m, hm, hfirst⟩, ⟨lib₁, more⟩, hmore, h⟩ := h
    cases pure_eq_ok_iff.mp h
    obtain ⟨hlib', htoList⟩ := ih hsound hmore
    refine ⟨hlib', ?_⟩
    rw [ConfigBits.toList_append, htoList, List.flatMap_cons, codeOf, hm, eq_code_of_encode hfirst]

/-- A block holds the bits of a box: the codes of the multiplexers in front of its nodes. -/
structure Fills (g : RoutingGraph) (box : Box.Link) (block : BlockBits) : Prop where
  name : block.name = box.name
  span : block.span = some box.span
  bits : block.bits.toList = (box.nodes.filterMap (nodeMux? g)).flatMap (codeOf box.circuit)
  length : block.bits.toList.length = box.span.length

/-- The bits of a routing box are those of its multiplexers, and fill its stretch. -/
theorem fills_of_boxBits {box : Box.Link} {block : BlockBits} (hlib : lib.Sound)
    (h : boxBits g box.circuit lib box.name box.span box.nodes = .ok (lib', block)) :
  lib'.Sound ∧ Fills g box block
  := by
  obtain ⟨ss, hss, h⟩ := bind_eq_ok_iff.mp h
  obtain ⟨⟨lib₁, bits⟩, hencode, h⟩ := bind_eq_ok_iff.mp h
  obtain ⟨hlib₁, hbits⟩ := toList_of_encodeAll hlib hencode
  rw [eq_of_settings hss] at hbits
  dsimp only at h
  split at h
  · rename_i hlength
    cases pure_eq_ok_iff.mp h
    exact ⟨hlib₁, rfl, rfl, hbits, hlength⟩
  · cases fail_ne_ok h

/-- Blocks of a list are encoded one after another, each with the models that the ones before left.
-/
theorem forall₂_of_collect {β : Type} {encode : Library → β → Outcome (Library × BlockBits)}
    (Q : Library → Prop) {P : β → BlockBits → Prop} {xs : List β} {blocks : List BlockBits}
    (hencode : ∀ x lib lib' block, Q lib → encode lib x = .ok (lib', block) → Q lib' ∧ P x block)
    (hlib : Q lib) (h : collect encode lib xs = .ok (lib', blocks)) :
  Q lib' ∧ List.Forall₂ P xs blocks
  := by
  induction xs generalizing lib blocks with
  | nil =>
    cases pure_eq_ok_iff.mp h
    exact ⟨hlib, .nil⟩
  | cons x xs ih =>
    obtain ⟨⟨lib₁, block⟩, hx, h⟩ := bind_eq_ok_iff.mp h
    obtain ⟨⟨lib₂, more⟩, hmore, h⟩ := bind_eq_ok_iff.mp h
    cases pure_eq_ok_iff.mp h
    obtain ⟨hlib₁, hP⟩ := hencode x lib lib₁ block hlib hx
    obtain ⟨hlib', hall⟩ := ih hlib₁ hmore
    exact ⟨hlib', .cons hP hall⟩

/-! ### What assembly does not stop at -/

/-- Building a model does not find bits that do not fill a stretch. -/
theorem avoids_build (size : Nat) (circuit : Circuit) :
  Avoids Problem.IsSpanMismatch (Model.build size circuit)
  := by
  rw [Model.build]
  split
  case isTrue => apply avoids_fail id
  case isFalse =>
    apply Avoids.bind
    · rw [stages.eq_def]
      split
      · apply avoids_pure
      · apply avoids_pure
      · apply avoids_fail id
      · apply avoids_pure
      · split
        · apply avoids_fault
        · apply avoids_pure
    · rintro ⟨levels, basis⟩ -
      dsimp only
      split
      · apply avoids_fault
      · apply avoids_pure

/-- Encoding an input does not find bits that do not fill a stretch. -/
theorem avoids_encode (m : Model) (path : Nat) : Avoids Problem.IsSpanMismatch (m.encode path) := by
  rw [Model.encode]
  split
  case isTrue =>
    apply Avoids.bind
    · apply (problemless_word _).avoids
    · intro count _
      split
      · apply avoids_pure
      · apply avoids_fault
  case isFalse => apply avoids_fail id

/-- Asking a library for a model does not find bits that do not fill a stretch. -/
theorem avoids_get (lib : Library) (size : Nat) (circuit : Circuit) :
  Avoids Problem.IsSpanMismatch (lib.get size circuit).2
  := by
  have hbuild := avoids_build size circuit
  rw [Library.get]
  cases lib.find? size circuit with
  | some m => apply avoids_pure
  | none =>
    cases hm : Model.build size circuit with
    | ok m => apply avoids_pure
    | error e =>
      rw [hm] at hbuild
      apply hbuild

/-- Encoding with a library does not find bits that do not fill a stretch. -/
theorem avoids_encode_library (lib : Library) (size : Nat) (circuit : Circuit) (path : Nat) :
  Avoids Problem.IsSpanMismatch (lib.encode size circuit path).2
  := by
  have hget := avoids_get lib size circuit
  rw [Library.encode]
  split
  case h_1 => apply avoids_encode
  case h_2 lib' e he =>
    rw [he] at hget
    apply Avoids.error hget

/-- Encoding multiplexers does not find bits that do not fill a stretch. -/
theorem avoids_encodeAll (ss : List MuxSetting) :
  Avoids Problem.IsSpanMismatch (encodeAll circuit lib ss)
  := by
  induction ss generalizing lib with
  | nil => apply avoids_pure
  | cons s ss ih =>
    rw [encodeAll]
    apply (avoids_encode_library lib s.size circuit s.path).bind
    intro bits _
    apply ih.bind
    rintro ⟨lib', more⟩ -
    apply avoids_pure

/-- Setting the multiplexers in front of nodes has no problems. -/
theorem problemless_settings (nodes : List NodeId) : Problemless (Box.settings g nodes) := by
  apply (problemless_mapM fun id => problemless_entry g.nodes id).bind
  intro ns
  apply problemless_pure

/-- The bits of a box whose stretch has been measured fill it. -/
theorem avoids_boxBits {box : Box.Link} (hlib : lib.Sound)
    (hsized : Sized g box.circuit box.nodes box.span) :
  Avoids Problem.IsSpanMismatch (boxBits g box.circuit lib box.name box.span box.nodes)
  := by
  rw [boxBits]
  apply Avoids.bind
  · apply (problemless_settings _).avoids
  · intro ss hss
    apply (avoids_encodeAll ss).bind
    rintro ⟨lib', bits⟩ hencode
    have hlength : bits.length = box.span.length := by
      rw [ConfigBits.length, (toList_of_encodeAll hlib hencode).2, hsized.length_eq.2,
        eq_of_settings hss, List.length_flatMap]
      simp only [length_codeOf, bitLength]
    dsimp only
    rw [if_pos hlength]
    apply avoids_pure

/-- Blocks of a list avoid what each of them does, with the models that the ones before left. -/
theorem avoids_collect {β : Type} {encode : Library → β → Outcome (Library × BlockBits)}
    {P : Problem → Prop} {xs : List β} (I : Library → Prop)
    (hencode : ∀ x ∈ xs, ∀ lib, I lib → Avoids P (encode lib x)
      ∧ ∀ lib' block, encode lib x = .ok (lib', block) → I lib')
    (hlib : I lib) :
  Avoids P (collect encode lib xs)
  := by
  induction xs generalizing lib with
  | nil => apply avoids_pure
  | cons x xs ih =>
    obtain ⟨havoids, hkeeps⟩ := hencode x List.mem_cons_self lib hlib
    rw [collect]
    apply havoids.bind
    rintro ⟨lib', block⟩ hx
    apply Avoids.bind
    · apply ih _ (hkeeps lib' block hx)
      intro y hy
      apply hencode y (List.mem_cons_of_mem x hy)
    · rintro ⟨lib'', more⟩ -
      apply avoids_pure

/-- The bits of a cluster fill no stretch. -/
theorem avoids_clusterBits (b : BlockGraph) (c : Cluster) :
  Avoids Problem.IsSpanMismatch (clusterBits b circuit lib c)
  := by
  have hpins : ∀ ids lib, Avoids Problem.IsSpanMismatch (encodePins b circuit c lib ids) := by
    intro ids
    induction ids with
    | nil =>
      intro lib
      apply avoids_pure
    | cons id ids ih =>
      intro lib
      rw [encodePins]
      apply Avoids.bind
      · apply Problemless.avoids
        rw [pinSetting]
        apply (Cluster.problemless_activeInputs id).bind
        intro edges
        dsimp only
        split
        · apply problemless_pure
        · apply (problemless_entry _ _).bind
          intro s
          apply problemless_pure
      · rintro (_ | s) -
        · apply ih
        · apply (avoids_encode_library lib s.size circuit s.path).bind
          intro bits _
          apply (ih _).bind
          rintro ⟨lib', count, more⟩ -
          apply avoids_pure
  rw [clusterBits]
  apply (hpins _ _).bind
  rintro ⟨lib', muxes, bits⟩ -
  apply avoids_pure

/-- Measuring multiplexers does not find bits that do not fill a stretch. -/
theorem avoids_measure {ss : List MuxSetting} {bits reserved : Nat} :
  Avoids Problem.IsSpanMismatch (Box.measure circuit lib bits reserved ss)
  := by
  induction ss generalizing lib bits reserved with
  | nil => apply avoids_pure
  | cons s ss ih =>
    rw [Box.measure]
    apply (avoids_get lib s.size circuit).bind
    intro m _
    apply (problemless_word _).avoids.bind
    intro count _
    apply (problemless_word _).avoids.bind
    intro total _
    apply ih

/-- Laying boxes out does not find bits that do not fill a stretch. -/
theorem avoids_layOut {β : Type} {muxNodes : β → List NodeId} {record : β → Box.Span → β}
    {start : Nat} {boxes : List β} :
  Avoids Problem.IsSpanMismatch (Box.layOut muxNodes record g circuit lib start boxes).2
  := by
  induction boxes generalizing lib start with
  | nil => apply avoids_pure
  | cons box boxes ih =>
    have hallot : Avoids Problem.IsSpanMismatch
        (Box.allot g circuit lib start (muxNodes box)) := by
      apply (problemless_settings _).avoids.bind
      intro ss _
      apply avoids_measure.bind
      rintro ⟨lib', bits, reserved⟩ -
      apply (problemless_word _).avoids.bind
      intro msb _
      apply avoids_pure
    rw [Box.layOut]
    split
    case h_1 e he =>
      rw [he] at hallot
      apply hallot.error
    case h_2 => apply ih

/-- Allocating the chain does not find bits that do not fill a stretch. -/
theorem avoids_allocate (switchMux connectionMux : Circuit) (d : DeviceBoxes) :
  Avoids Problem.IsSpanMismatch
    ((DeviceBoxes.allocate g switchMux connectionMux lib).run d).outcome
  := by
  simp only [DeviceBoxes.allocate, Phase.outcome_bind]
  apply Avoids.bind avoids_layOut
  rintro ⟨lib₁, i⟩ -
  apply Avoids.bind avoids_layOut
  rintro ⟨lib₂, j⟩ -
  apply avoids_layOut

/-! ### Assembly -/

variable {f : Fabric} {o : Options} {d : DeviceBoxes} {a : Assembly}

/-- The blocks of boxes of one sort, by whatever they are kept. -/
theorem fills_of_collect {β : Type} {boxes : List β} {blocks : List BlockBits} (link : β → Box.Link)
    (hlib : lib.Sound)
    (h : collect (fun lib b => boxBits g (link b).circuit lib (link b).name (link b).span
      (link b).nodes) lib boxes = .ok (lib', blocks)) :
  lib'.Sound ∧ List.Forall₂ (Fills g) (boxes.map link) blocks
  := by
  rw [List.forall₂_map_left_iff]
  apply forall₂_of_collect Library.Sound _ hlib h
  intro b lib lib' block hlib hb
  apply fills_of_boxBits hlib hb

/-- The blocks of an assembled bitstream hold the bits of the boxes, which have been laid out. -/
theorem fills_of_assemble (h : assemble f o d = .ok a) :
  (∃ lib, (DeviceBoxes.allocate f.graph o.switchMux o.connectionMux .empty).Gives d
      (lib, a.total) a.boxes)
    ∧ List.Forall₂ (Fills f.graph) (a.boxes.links o.switchMux o.connectionMux) a.bitstream.boxes
  := by
  obtain ⟨⟨lib, total⟩, hallocate, h⟩ := bind_eq_ok_iff.mp h
  obtain ⟨⟨lib₁, switch⟩, hswitch, h⟩ := bind_eq_ok_iff.mp h
  obtain ⟨⟨lib₂, connection⟩, hconnection, h⟩ := bind_eq_ok_iff.mp h
  obtain ⟨⟨lib₃, clusters⟩, -, h⟩ := bind_eq_ok_iff.mp h
  cases pure_eq_ok_iff.mp h
  refine ⟨⟨lib, hallocate, rfl⟩, ?_⟩
  obtain ⟨hlib, -⟩ := DeviceBoxes.laidOut_of_allocate Library.sound_empty ⟨hallocate, rfl⟩
  obtain ⟨hlib₁, hs⟩ := fills_of_collect (SwitchBox.link o.switchMux) hlib hswitch
  obtain ⟨hlib₂, hc⟩ := fills_of_collect (ConnectionBox.link o.connectionMux) hlib₁ hconnection
  apply List.rel_append hs hc

/-- Assembly does not find bits that do not fill a stretch. -/
theorem avoids_assemble (f : Fabric) (o : Options) (d : DeviceBoxes) :
  Avoids Problem.IsSpanMismatch (assemble f o d)
  := by
  rw [assemble]
  apply (avoids_allocate o.switchMux o.connectionMux d).bind
  rintro ⟨lib, total⟩ hallocate
  obtain ⟨hlib, -, -, hsized⟩ :=
    DeviceBoxes.laidOut_of_allocate Library.sound_empty ⟨hallocate, rfl⟩
  generalize ((DeviceBoxes.allocate f.graph o.switchMux o.connectionMux .empty).run d).state = d'
    at hsized ⊢
  have hboxes : ∀ box ∈ d'.links o.switchMux o.connectionMux, ∀ lib : Library, lib.Sound →
      Avoids Problem.IsSpanMismatch
          (boxBits f.graph box.circuit lib box.name box.span box.nodes)
        ∧ ∀ lib' block, boxBits f.graph box.circuit lib box.name box.span box.nodes
          = .ok (lib', block) → lib'.Sound := by
    intro box hbox lib hlib
    refine ⟨avoids_boxBits hlib (hsized box hbox), ?_⟩
    intro lib' block h
    apply (fills_of_boxBits hlib h).1
  apply Avoids.bind
  · apply avoids_collect Library.Sound _ hlib
    intro b hb
    apply hboxes (b.link o.switchMux) (List.mem_append_left _ (List.mem_map_of_mem hb))
  rintro ⟨lib₁, switch⟩ hswitch
  obtain ⟨hlib₁, -⟩ := fills_of_collect (SwitchBox.link o.switchMux) hlib hswitch
  apply Avoids.bind
  · apply avoids_collect Library.Sound _ hlib₁
    intro b hb
    apply hboxes (b.link o.connectionMux) (List.mem_append_right _ (List.mem_map_of_mem hb))
  rintro ⟨lib₂, connection⟩ -
  apply Avoids.bind
  · apply avoids_collect (fun _ => True) _ trivial
    intro c _ lib _
    refine ⟨?_, fun _ _ _ => trivial⟩
    apply (problemless_entry _ _).avoids.bind
    intro b _
    apply avoids_clusterBits
  rintro ⟨lib₃, clusters⟩ -
  apply avoids_pure

/-- Blocks that fill stretches without gaps have their bits at these stretches of all bits. -/
theorem slices_of_fills {start stop : Nat} {boxes : List Box.Link} {blocks : List BlockBits}
    (hspans : Box.Consecutive start stop (boxes.map (·.span)))
    (hfills : List.Forall₂ (Fills g) boxes blocks) (before : List Bool)
    (hbefore : before.length = start) :
  (before ++ blocks.flatMap (·.bits.toList)).length = stop
    ∧ List.Forall₂ (fun box block => Fills g box block
        ∧ ((before ++ blocks.flatMap (·.bits.toList)).drop box.span.lsb).take box.span.length
          = block.bits.toList)
      boxes blocks
  := by
  induction hfills generalizing start before with
  | nil =>
    cases hspans
    exact ⟨by simpa using hbefore, .nil⟩
  | @cons box block boxes blocks hfill _ ih =>
    cases hspans with
    | cons ordered rest =>
      dsimp only at ordered hbefore rest
      have hafter : (before ++ block.bits.toList).length = box.span.msb := by
        rw [List.length_append, hbefore, hfill.length, Box.Span.length]
        omega
      obtain ⟨hstop, hslices⟩ := ih rest (before ++ block.bits.toList) hafter
      rw [List.flatMap_cons, ← List.append_assoc]
      refine ⟨hstop, .cons ⟨hfill, ?_⟩ hslices⟩
      rw [List.append_assoc, ← hbefore, List.drop_left, ← hfill.length, List.take_left]

/-- The configuration chain is cut up without gaps. If boxes are given their stretches of it,
whatever stretches they had before, then these follow one another in the order of the boxes from
bit 0 to the last, each of the bits of the multiplexers of its box, with the most that any of them
reserves. In the bits of an assembled bitstream each box finds its own bits in its stretch, and
assembly never stops because the bits of a box do not fill it. -/
theorem chain_partition :
  (∀ (g : RoutingGraph) (switchMux connectionMux : Circuit) (lib lib' : Library)
      (d d' : DeviceBoxes) (total : Nat), lib.Sound →
      (DeviceBoxes.allocate g switchMux connectionMux lib).Gives d (lib', total) d' →
    d'.unplaced = d.unplaced ∧ Box.Consecutive 0 total d'.spans
      ∧ ∀ box ∈ d'.links switchMux connectionMux, Sized g box.circuit box.nodes box.span)
  ∧ (∀ (f : Fabric) (o : Options) (d : DeviceBoxes) (a : Assembly), assemble f o d = .ok a →
    (∃ lib, (DeviceBoxes.allocate f.graph o.switchMux o.connectionMux .empty).Gives d
        (lib, a.total) a.boxes)
      ∧ a.bitstream.routingBits.length = a.total
      ∧ List.Forall₂ (fun box block => Fills f.graph box block
          ∧ (a.bitstream.routingBits.toList.drop box.span.lsb).take box.span.length
            = block.bits.toList)
        (a.boxes.links o.switchMux o.connectionMux) a.bitstream.boxes)
  ∧ ∀ (f : Fabric) (o : Options) (d : DeviceBoxes) (name : String) (expected found : Nat),
    assemble f o d ≠ .error (.problem (.confBitSpanMismatch name expected found))
  := by
  refine ⟨?_, ?_, ?_⟩
  · intro g switchMux connectionMux lib lib' d d' total hlib h
    apply (DeviceBoxes.laidOut_of_allocate hlib h).2
  · intro f o d a h
    obtain ⟨⟨lib, hallocate⟩, hfills⟩ := fills_of_assemble h
    obtain ⟨-, -, hspans, -⟩ := DeviceBoxes.laidOut_of_allocate Library.sound_empty hallocate
    rw [← DeviceBoxes.map_span_links] at hspans
    have hslices := slices_of_fills hspans hfills [] rfl
    rw [List.nil_append, ← toList_routingBits] at hslices
    exact ⟨⟨lib, hallocate⟩, hslices⟩
  · intro f o d name expected found
    apply avoids_assemble f o d (.confBitSpanMismatch name expected found) trivial

/-- The two multiplexers of the wires next to a block share a chain of two bits. -/
theorem chain_partition_lanes :
  ∃ d a, DeviceBoxes.build annotatedLanes.graph annotatedLanes.grid 2 = .ok d
    ∧ assemble annotatedLanes {} d = .ok a
    ∧ Box.Consecutive 0 2 a.boxes.spans ∧ a.bitstream.routingBits.length = 2
  := by
  have htotal : (do
      let d ← DeviceBoxes.build annotatedLanes.graph annotatedLanes.grid 2
      let a ← assemble annotatedLanes {} d
      return a.total) = Except.ok 2 := by
    decide +kernel
  obtain ⟨d, hd, htotal⟩ := bind_eq_ok_iff.mp htotal
  obtain ⟨a, ha, htotal⟩ := bind_eq_ok_iff.mp htotal
  obtain ⟨hallocated, hassembled, -⟩ := chain_partition
  obtain ⟨⟨lib, hallocate⟩, hlength, -⟩ := hassembled annotatedLanes {} d a ha
  obtain ⟨-, hspans, -⟩ := hallocated _ _ _ _ _ _ _ _ Library.sound_empty hallocate
  rw [pure_eq_ok_iff.mp htotal] at hspans hlength
  exact ⟨d, a, hd, ha, hspans, hlength⟩

end Bitstream

end RoutingFabric
