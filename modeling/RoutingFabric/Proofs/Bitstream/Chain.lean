import RoutingFabric.Proofs.Bitstream.Blocks

/-!
# The chain is cut up without gaps

Once the boxes of a device have taken their stretches of the configuration chain, the stretches
follow one another in the order of the boxes, from the first bit of the chain to the last, and each
has the bits that the multiplexers of its box need. Nothing else about the boxes has changed.
-/

namespace RoutingFabric

open Mux RoutingGraph

/-- Stretches that follow one another without gaps, from a bit up to and without another. -/
inductive Box.Consecutive : Nat → Nat → List Span → Prop where
  | nil (start : Nat) : Consecutive start start []
  | cons {span : Span} {spans : List Span} {stop : Nat} (ordered : span.lsb ≤ span.msb)
      (rest : Consecutive span.msb stop spans) : Consecutive span.lsb stop (span :: spans)

/-- Stretches that follow others without gaps. -/
theorem Box.Consecutive.append {start middle stop : Nat} {spans spans' : List Span}
    (h : Consecutive start middle spans) (h' : Consecutive middle stop spans') :
  Consecutive start stop (spans ++ spans')
  := by
  induction h with
  | nil => apply h'
  | cons ordered _ ih => apply cons ordered (ih h')

namespace Bitstream

/-- The multiplexers in front of nodes have models, a stretch of the chain has the bits of all of
them, and of the bits that any of them reserves the most are shared. -/
def Sized (g : RoutingGraph) (circuit : Circuit) (nodes : List NodeId) (span : Box.Span) : Prop :=
  ∃ models, List.Forall₂ (fun s m => Model.build s.size circuit = .ok m)
      (nodes.filterMap (nodeMux? g)) models
    ∧ span.msb = span.lsb + (models.map Model.confBits).sum
    ∧ span.reserved = (models.map Model.reservedBits).foldl max 0

variable {g : RoutingGraph} {circuit : Circuit} {lib lib' : Library} {nodes : List NodeId}
variable {span : Box.Span}

/-- A stretch of the right size has as many bits as the multiplexers are said to have. -/
theorem Sized.length_eq (h : Sized g circuit nodes span) :
  span.lsb ≤ span.msb ∧ span.length = bitLength g circuit nodes
  := by
  obtain ⟨models, hmodels, hmsb, -⟩ := h
  have hlength : bitLength g circuit nodes = (models.map Model.confBits).sum := by
    rw [bitLength]
    clear hmsb
    generalize nodes.filterMap (nodeMux? g) = ss at hmodels ⊢
    induction hmodels with
    | nil => rfl
    | @cons s m ss ms hm _ ih =>
      rw [List.map_cons, List.map_cons, List.sum_cons, List.sum_cons, ih, bitCount, hm]
  rw [Box.Span.length, hmsb, hlength]
  omega

/-! ### One box -/

/-- The multiplexers to be set in front of nodes are those in front of nodes that two or more edges
reach. -/
theorem eq_of_settings {ss : List MuxSetting} (h : Box.settings g nodes = .ok ss) :
  ss = nodes.filterMap (nodeMux? g)
  := by
  obtain ⟨ns, hns, -⟩ := bind_eq_ok_iff.mp h
  rw [settings_eq (exists_of_mapM_eq_ok hns)] at h
  cases h
  rfl

/-- Multiplexers that have been measured have models, whose bits have been added up. -/
theorem exists_models_of_measure {ss : List MuxSetting} {bits reserved bits' reserved' : Nat}
    (hlib : lib.Sound)
    (h : Box.measure circuit lib bits reserved ss = .ok (lib', bits', reserved')) :
  lib'.Sound ∧ ∃ models, List.Forall₂ (fun s m => Model.build s.size circuit = .ok m) ss models
    ∧ bits' = bits + (models.map Model.confBits).sum
    ∧ reserved' = (models.map Model.reservedBits).foldl max reserved
  := by
  induction ss generalizing lib bits reserved with
  | nil =>
    cases pure_eq_ok_iff.mp h
    exact ⟨hlib, [], List.Forall₂.nil, rfl, rfl⟩
  | cons s ss ih =>
    obtain ⟨hsound, hget⟩ := hlib.get s.size circuit
    rw [Box.measure] at h
    simp only [hget, bind_eq_ok_iff] at h
    obtain ⟨m, hm, count, hcount, total, htotal, h⟩ := h
    obtain ⟨hlib', models, hmodels, rfl, rfl⟩ := ih hsound h
    refine ⟨hlib', m :: models, List.Forall₂.cons hm hmodels, ?_, rfl⟩
    rw [eq_of_word htotal, eq_of_word hcount, List.map_cons, List.sum_cons, Nat.add_assoc]

/-- A box takes the bits that its multiplexers need, from the bit on that it is given. -/
theorem sized_of_allot {start : Nat} (hlib : lib.Sound)
    (h : Box.allot g circuit lib start nodes = .ok (lib', span)) :
  lib'.Sound ∧ span.lsb = start ∧ Sized g circuit nodes span
  := by
  obtain ⟨ss, hss, h⟩ := bind_eq_ok_iff.mp h
  obtain ⟨⟨lib₁, bits, reserved⟩, hmeasure, h⟩ := bind_eq_ok_iff.mp h
  obtain ⟨msb, hmsb, h⟩ := bind_eq_ok_iff.mp h
  cases pure_eq_ok_iff.mp h
  obtain ⟨hlib', models, hmodels, rfl, rfl⟩ := exists_models_of_measure hlib hmeasure
  rw [eq_of_settings hss] at hmodels
  refine ⟨hlib', rfl, models, hmodels, ?_, rfl⟩
  rw [eq_of_word hmsb, Nat.zero_add]

/-! ### Boxes of one sort -/

section Boxes

variable {β γ : Type} {muxNodes : β → List NodeId} {boxes : List β} {start stop : Nat}

/-- Boxes that take their stretches of the chain change in nothing but these, also where one of them
cannot. -/
theorem map_layOut (record : β → Box.Span → β) (view : β → γ)
    (hview : ∀ b span, view (record b span) = view b) :
  (Box.layOut muxNodes record g circuit lib start boxes).1.map view = boxes.map view
  := by
  induction boxes generalizing lib start with
  | nil => rfl
  | cons b boxes ih =>
    rw [Box.layOut]
    split
    · rfl
    · dsimp only
      rw [List.map_cons, List.map_cons, hview, ih]

/-- The boxes of a table that take their stretches of the chain change in nothing but these. -/
theorem map_toArray_layOut (record : β → Box.Span → β) (view : β → γ)
    (hview : ∀ b span, view (record b span) = view b) (boxes : Array β) :
  (Box.layOut muxNodes record g circuit lib start boxes.toList).1.toArray.map view = boxes.map view
  := by
  rw [List.map_toArray, map_layOut record view hview, ← Array.toList_map, Array.toArray_toList]

/-- Boxes of one sort have taken stretches of the chain that follow one another, each of the bits
that the multiplexers of its box need. -/
structure LaidOut (g : RoutingGraph) (circuit : Circuit) (muxNodes : β → List NodeId)
    (spanOf : β → Box.Span) (start stop : Nat) (boxes : List β) : Prop where
  consecutive : Box.Consecutive start stop (boxes.map spanOf)
  sized : ∀ b ∈ boxes, Sized g circuit (muxNodes b) (spanOf b)

/-- Boxes of one sort that have been laid out have taken their stretches one after another. -/
theorem laidOut_of_layOut (record : β → Box.Span → β) (spanOf : β → Box.Span)
    (hnodes : ∀ b span, muxNodes (record b span) = muxNodes b)
    (hspan : ∀ b span, spanOf (record b span) = span) (hlib : lib.Sound)
    (h : (Box.layOut muxNodes record g circuit lib start boxes).2 = .ok (lib', stop)) :
  lib'.Sound ∧ LaidOut g circuit muxNodes spanOf start stop
    (Box.layOut muxNodes record g circuit lib start boxes).1
  := by
  induction boxes generalizing lib start with
  | nil =>
    cases h
    refine ⟨hlib, .nil _, ?_⟩
    intro b hb
    cases hb
  | cons b boxes ih =>
    rw [Box.layOut] at h ⊢
    split at h
    · cases h
    · rename_i lib₁ span hallot
      obtain ⟨hlib₁, rfl, hsized⟩ := sized_of_allot hlib hallot
      obtain ⟨hlib', hlaidOut⟩ := ih hlib₁ h
      dsimp only
      refine ⟨hlib', ?_, ?_⟩
      · rw [List.map_cons, hspan]
        apply Box.Consecutive.cons hsized.length_eq.1 hlaidOut.consecutive
      · intro b' hb'
        rcases List.mem_cons.mp hb' with rfl | hb'
        · rw [hspan, hnodes]
          apply hsized
        · apply hlaidOut.sized b' hb'

end Boxes

end Bitstream

/-! ### All boxes -/

/-- A box of the chain, of whichever sort: its name, the circuit of its multiplexers, its stretch,
and the nodes that have their multiplexers in it. -/
structure Box.Link where
  name : String
  circuit : Circuit
  span : Span
  nodes : List NodeId

/-- A switch box as one of the chain. -/
def SwitchBox.link (circuit : Circuit) (b : SwitchBox) : Box.Link :=
  ⟨b.name, circuit, b.span, b.muxNodes⟩

/-- A connection box as one of the chain. -/
def ConnectionBox.link (circuit : Circuit) (b : ConnectionBox) : Box.Link :=
  ⟨b.name, circuit, b.span, b.muxNodes⟩

namespace DeviceBoxes

open Bitstream

variable {g : RoutingGraph} {switchMux connectionMux : Circuit} {lib lib' : Library}
variable {d d' : DeviceBoxes} {total : Nat}

/-- The boxes of a device in the order of the chain: switch boxes, connection boxes along the x
axis, connection boxes along the y axis. -/
def links (switchMux connectionMux : Circuit) (d : DeviceBoxes) : List Box.Link :=
  d.switch.toList.map (·.link switchMux)
    ++ (d.connectionX.toList ++ d.connectionY.toList).map (·.link connectionMux)

/-- The boxes of a device without their stretches of the chain. -/
def unplaced (d : DeviceBoxes) : DeviceBoxes where
  columns := d.columns
  rows := d.rows
  switch := d.switch.map fun b => { b with span := {} }
  connectionX := d.connectionX.map fun b => { b with span := {} }
  connectionY := d.connectionY.map fun b => { b with span := {} }

/-- The stretches of the boxes are in the order of the chain. -/
theorem map_span_links (d : DeviceBoxes) :
  (d.links switchMux connectionMux).map (·.span) = d.spans
  := by
  simp [links, spans, SwitchBox.link, ConnectionBox.link, Function.comp_def]

/-- The boxes of a device take their stretches of the chain without any gap between them, and change
in nothing else. -/
theorem laidOut_of_allocate (hlib : lib.Sound)
    (h : (allocate g switchMux connectionMux lib).Gives d (lib', total) d') :
  lib'.Sound ∧ d'.unplaced = d.unplaced ∧ Box.Consecutive 0 total d'.spans
    ∧ ∀ b ∈ d'.links switchMux connectionMux, Sized g b.circuit b.nodes b.span
  := by
  simp only [allocate, Phase.gives_bind_iff, Phase.gives_state_iff, Phase.gives_put_iff,
    Phase.gives_lift_iff] at h
  obtain ⟨_, _, ⟨rfl, rfl⟩, -, _, rfl, ⟨lib₁, i⟩, _, ⟨hswitch, rfl⟩, -, _, rfl, ⟨lib₂, j⟩, _,
    ⟨hx, rfl⟩, -, _, rfl, hy, rfl⟩ := h
  obtain ⟨hlib₁, hswitch⟩ := laidOut_of_layOut (fun (b : SwitchBox) span => { b with span })
    (·.span) (fun _ _ => rfl) (fun _ _ => rfl) hlib hswitch
  obtain ⟨hlib₂, hx⟩ := laidOut_of_layOut (fun (b : ConnectionBox) span => { b with span })
    (·.span) (fun _ _ => rfl) (fun _ _ => rfl) hlib₁ hx
  obtain ⟨hlib', hy⟩ := laidOut_of_layOut (fun (b : ConnectionBox) span => { b with span })
    (·.span) (fun _ _ => rfl) (fun _ _ => rfl) hlib₂ hy
  refine ⟨hlib', ?_, ?_, ?_⟩
  · rw [unplaced, unplaced]
    congr 1
    · apply map_toArray_layOut (fun (b : SwitchBox) span => { b with span }) _ fun _ _ => rfl
    · apply map_toArray_layOut (fun (b : ConnectionBox) span => { b with span }) _ fun _ _ => rfl
    · apply map_toArray_layOut (fun (b : ConnectionBox) span => { b with span }) _ fun _ _ => rfl
  · apply (hswitch.consecutive.append hx.consecutive).append hy.consecutive
  · intro b hb
    rcases List.mem_append.mp hb with hb | hb
    · obtain ⟨box, hbox, rfl⟩ := List.mem_map.mp hb
      apply hswitch.sized box hbox
    · obtain ⟨box, hbox, rfl⟩ := List.mem_map.mp hb
      rcases List.mem_append.mp hbox with hbox | hbox
      · apply hx.sized box hbox
      · apply hy.sized box hbox

end DeviceBoxes

end RoutingFabric
