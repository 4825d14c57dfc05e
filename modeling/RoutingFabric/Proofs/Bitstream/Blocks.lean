import RoutingFabric.Proofs.Bitstream.Chunks
import RoutingFabric.Proofs.Cluster.Propagation
import RoutingFabric.Proofs.RoutingGraph.Annotation

/-!
# Blocks of a bitstream

The bits of a routing box are the chunks of the multiplexers in it, and each chunk is read back
as the driver that the node behind its multiplexer selects. The bits of a cluster are read back
as the drivers that its pins select.
-/

namespace RoutingFabric.Bitstream

open Mux RoutingGraph

/-! ### Multiplexers of a fabric -/

/-- The multiplexer in front of a node, if two or more edges reach it. A node that selects no
driver takes its first one. -/
def nodeMux? (g : RoutingGraph) (id : NodeId) : Option MuxSetting :=
  match g.nodes[id]? with
  | some n =>
    if 2 ≤ n.fanIn then
      match n.selected with
      | some s => some ⟨n.fanIn, s.path⟩
      | none => some ⟨n.fanIn, 0⟩
    else none
  | none => none

/-- The multiplexer in front of a pin, if two or more active edges reach it. A pin that selects
no driver takes its first edge. -/
def pinMux? (b : BlockGraph) (c : Cluster) (id : PinId) : Option MuxSetting :=
  match b.activeInputs c.modes id, c.locals.pins[id]? with
  | .ok edges, some s =>
    if 2 ≤ edges.length then
      match s.selected with
      | some d => some ⟨edges.length, d.path⟩
      | none => some ⟨edges.length, 0⟩
    else none
  | _, _ => none

/-- The multiplexers in front of nodes, of one circuit. -/
def nodeMuxes (g : RoutingGraph) (circuit : Circuit) (nodes : List NodeId) :
    List (Circuit × MuxSetting) :=
  (nodes.filterMap (nodeMux? g)).map fun s => (circuit, s)

/-- The multiplexers of a cluster, in the order of its pins. -/
def clusterMuxes (o : Options) (b : BlockGraph) (c : Cluster) : List (Circuit × MuxSetting) :=
  ((List.range b.pins.size).filterMap (pinMux? b c)).map fun s => (o.clusterMux, s)

/-- The number of bits of the multiplexers in front of nodes. -/
def bitLength (g : RoutingGraph) (circuit : Circuit) (nodes : List NodeId) : Nat :=
  ((nodes.filterMap (nodeMux? g)).map (bitCount circuit)).sum

/-! ### Boxes -/

variable {g : RoutingGraph} {circuit : Circuit}

/-- The multiplexer in front of a sound node can be encoded. -/
theorem encodable_of_nodeMux? (hg : g.Every Node.Sound) {id : NodeId} {s : MuxSetting}
    (h : nodeMux? g id = some s) :
  Encodable s
  := by
  rw [nodeMux?] at h
  split at h
  · rename_i n hn
    obtain ⟨⟨hfits, hdrivers⟩, hrouted⟩ := hg id n (entry_eq_ok_iff.mpr hn)
    have htable : positionBytes * n.fanIn ≤ tableLimit := by
      apply le_trans _ hfits
      apply Nat.mul_le_mul_right
      decide
    split at h
    · rename_i htwo
      split at h
      · rename_i selection hselected
        cases h
        constructor
        · apply htwo
        · apply htable
        · rw [← hdrivers]
          apply hrouted selection hselected
      · cases h
        constructor
        · apply htwo
        · apply htable
        · apply Nat.lt_of_lt_of_le Nat.zero_lt_two htwo
    · cases h
  · cases h

/-- The multiplexers in front of sound nodes can be encoded. -/
theorem encodable_of_nodes (hg : g.Every Node.Sound) (nodes : List NodeId) :
  ∀ s ∈ nodes.filterMap (nodeMux? g), Encodable s
  := by
  intro s hs
  obtain ⟨id, -, hid⟩ := List.mem_filterMap.mp hs
  apply encodable_of_nodeMux? hg hid

/-- The multiplexers in front of nodes of the graph are found. -/
theorem settings_eq {nodes : List NodeId} (h : ∀ id ∈ nodes, ∃ n, g.node id = .ok n) :
  Box.settings g nodes = .ok (nodes.filterMap (nodeMux? g))
  := by
  obtain ⟨ns, hns, -⟩ := exists_mapM_eq_ok (P := fun _ => True) fun id hid => by
    obtain ⟨n, hn⟩ := h id hid
    use n, hn
  have hmuxes : nodes.filterMap (nodeMux? g) = (ns.filter fun n => 2 ≤ n.fanIn).map fun n =>
      ⟨n.fanIn, (n.selected.map (·.path)).getD 0⟩ := by
    have hall := mapM_eq_ok_iff.mp hns
    clear hns h
    induction hall with
    | nil => rfl
    | @cons id n nodes ns hn _ ih =>
      rw [List.filterMap_cons, ih, List.filter_cons, nodeMux?]
      simp only [entry_eq_ok_iff.mp hn]
      by_cases htwo : 2 ≤ n.fanIn
      · cases hselected : n.selected <;> simp [htwo, hselected]
      · simp [htwo]
  rw [Box.settings, hns, ok_bind, hmuxes]
  rfl

/-- A box takes as many bits of the chain as its multiplexers have. -/
theorem exists_allot (hg : g.Every Node.Sound) (ht : circuit.topology.Bounded) {lib : Library}
    (hlib : lib.Sound) {nodes : List NodeId} (h : ∀ id ∈ nodes, ∃ n, g.node id = .ok n)
    (start : Nat) (hfits : start + bitLength g circuit nodes < wordLimit) :
  ∃ lib' span, Box.allot g circuit lib start nodes = .ok (lib', span) ∧ lib'.Sound
    ∧ span.length = bitLength g circuit nodes ∧ span.msb = start + bitLength g circuit nodes
  := by
  obtain ⟨lib', reserved, hmeasure, hlib'⟩ := exists_measure (encodable_of_nodes hg nodes) ht hlib
    (show 0 + bitLength g circuit nodes < wordLimit by omega) 0
  rw [Nat.zero_add] at hmeasure
  use lib', ⟨reserved, start, start + bitLength g circuit nodes⟩
  constructor
  · rw [Box.allot, settings_eq h, ok_bind, hmeasure, ok_bind]
    simp only [bitLength] at hfits ⊢
    simp only [word_of_lt hfits, ok_bind]
    rfl
  · use hlib'
    constructor
    · apply Nat.add_sub_cancel_left
    · rfl

/-- The boxes have the multiplexers of boxes from before, and stretches of the chain that are as
long as these need. -/
structure Allotted {β : Type} (g : RoutingGraph) (circuit : Circuit) (muxNodes : β → List NodeId)
    (spanOf : β → Box.Span) (boxes boxes' : List β) : Prop where
  nodes : boxes'.map muxNodes = boxes.map muxNodes
  spans : ∀ b ∈ boxes', (spanOf b).length = bitLength g circuit (muxNodes b)

variable {β : Type} {muxNodes : β → List NodeId} {spanOf : β → Box.Span} {boxes boxes' : List β}

/-- The boxes of one sort take their stretches of the chain one after another. -/
theorem exists_layOut (record : β → Box.Span → β) (spanOf : β → Box.Span)
    (hnodes : ∀ b span, muxNodes (record b span) = muxNodes b)
    (hspan : ∀ b span, spanOf (record b span) = span) (hg : g.Every Node.Sound)
    (ht : circuit.topology.Bounded) (h : ∀ b ∈ boxes, ∀ id ∈ muxNodes b, ∃ n, g.node id = .ok n)
    {lib : Library} (hlib : lib.Sound) (start : Nat)
    (hfits : start + (boxes.map fun b => bitLength g circuit (muxNodes b)).sum < wordLimit) :
  ∃ lib' boxes', Box.layOut muxNodes record g circuit lib start boxes
      = (boxes', .ok (lib', start + (boxes.map fun b => bitLength g circuit (muxNodes b)).sum))
    ∧ lib'.Sound ∧ Allotted g circuit muxNodes spanOf boxes boxes'
  := by
  induction boxes generalizing lib start with
  | nil =>
    use lib, [], rfl, hlib
    constructor
    · rfl
    · intro b hb
      cases hb
  | cons b boxes ih =>
    rw [List.map_cons, List.sum_cons] at hfits
    obtain ⟨lib', span, hallot, hlib', hlength, hmsb⟩ :=
      exists_allot hg ht hlib (h b List.mem_cons_self) start (by omega)
    obtain ⟨lib'', boxes', hlayOut, hlib'', hallotted⟩ :=
      ih (fun b' hb' => h b' (List.mem_cons_of_mem b hb')) hlib' span.msb (by omega)
    use lib'', record b span :: boxes'
    constructor
    · rw [Box.layOut, hallot]
      dsimp only
      rw [hlayOut, hmsb, List.map_cons, List.sum_cons, Nat.add_assoc]
    · use hlib''
      constructor
      · rw [List.map_cons, List.map_cons, hallotted.nodes, hnodes]
      · intro b' hb'
        rcases List.mem_cons.mp hb' with rfl | hb'
        · rw [hspan, hnodes, hlength]
        · apply hallotted.spans b' hb'

/-- The boxes have no other multiplexers than before. -/
theorem Allotted.exists_node (hallotted : Allotted g circuit muxNodes spanOf boxes boxes')
    (h : ∀ b ∈ boxes, ∀ id ∈ muxNodes b, ∃ n, g.node id = .ok n) :
  ∀ b ∈ boxes', ∀ id ∈ muxNodes b, ∃ n, g.node id = .ok n
  := by
  intro b' hb' id hid
  have hmem : muxNodes b' ∈ boxes.map muxNodes := by
    rw [← hallotted.nodes]
    apply List.mem_map_of_mem hb'
  obtain ⟨b, hb, hsame⟩ := List.mem_map.mp hmem
  apply h b hb id
  rw [hsame]
  apply hid

/-- The boxes have the multiplexers of before in the same order. -/
theorem Allotted.flatMap_nodeMuxes (hallotted : Allotted g circuit muxNodes spanOf boxes boxes') :
  boxes'.flatMap (fun b => nodeMuxes g circuit (muxNodes b))
    = boxes.flatMap (fun b => nodeMuxes g circuit (muxNodes b))
  := by
  rw [← List.flatMap_map muxNodes, hallotted.nodes, List.flatMap_map]

/-- Boxes of one sort after boxes of another take the stretches of both. -/
theorem Allotted.append {more more' : List β}
    (hallotted : Allotted g circuit muxNodes spanOf boxes boxes')
    (hmore : Allotted g circuit muxNodes spanOf more more') :
  Allotted g circuit muxNodes spanOf (boxes ++ more) (boxes' ++ more')
  := by
  constructor
  · rw [List.map_append, List.map_append, hallotted.nodes, hmore.nodes]
  · intro b hb
    rcases List.mem_append.mp hb with hb | hb
    · apply hallotted.spans b hb
    · apply hmore.spans b hb

/-- The bits of a box are read back as the drivers of its nodes. -/
theorem exists_boxBits (hg : g.Every Node.Sound) (ht : circuit.topology.Bounded) {lib : Library}
    (hlib : lib.Sound) {nodes : List NodeId} (h : ∀ id ∈ nodes, ∃ n, g.node id = .ok n)
    (name : String) {span : Box.Span} (hspan : span.length = bitLength g circuit nodes) :
  ∃ lib' block, boxBits g circuit lib name span nodes = .ok (lib', block) ∧ lib'.Sound
    ∧ Decodes (nodeMuxes g circuit nodes) block.bits.toList
  := by
  have hencodable := encodable_of_nodes hg nodes
  obtain ⟨lib', hencode, hlib'⟩ := exists_encodeAll hencodable ht hlib
  have hlength : ConfigBits.length ⟨(nodes.filterMap (nodeMux? g)).flatMap (codeOf circuit)⟩
      = span.length := by
    rw [ConfigBits.length, List.length_flatMap, hspan]
    simp only [length_codeOf, bitLength]
  use lib', ⟨name, some span, (nodes.filterMap (nodeMux? g)).length,
    ⟨(nodes.filterMap (nodeMux? g)).flatMap (codeOf circuit)⟩⟩
  constructor
  · rw [boxBits, settings_eq h, ok_bind, hencode, ok_bind]
    dsimp only
    rw [if_pos hlength]
    rfl
  · use hlib'
    apply decodes_codeOf hencodable ht

/-- The bits of boxes are read back as the drivers of their nodes, box by box. -/
theorem exists_collectBoxes (hg : g.Every Node.Sound) (ht : circuit.topology.Bounded)
    {lib : Library} (hlib : lib.Sound) (h : ∀ b ∈ boxes, ∀ id ∈ muxNodes b, ∃ n, g.node id = .ok n)
    (hallotted : Allotted g circuit muxNodes spanOf boxes boxes') (name : β → String) :
  ∃ lib' blocks,
    collect (fun lib b => boxBits g circuit lib (name b) (spanOf b) (muxNodes b)) lib boxes'
      = .ok (lib', blocks)
    ∧ lib'.Sound
    ∧ Decodes (boxes.flatMap fun b => nodeMuxes g circuit (muxNodes b))
      (blocks.flatMap (·.bits.toList))
  := by
  have hnode := hallotted.exists_node h
  have hboxes : ∀ b ∈ boxes', ∀ lib : Library, lib.Sound → ∃ lib' block,
      boxBits g circuit lib (name b) (spanOf b) (muxNodes b) = .ok (lib', block) ∧ lib'.Sound
        ∧ Decodes (nodeMuxes g circuit (muxNodes b)) block.bits.toList := by
    intro b hb lib hlib
    apply exists_boxBits hg ht hlib (hnode b hb) (name b) (hallotted.spans b hb)
  obtain ⟨lib', blocks, hcollect, hlib', hall⟩ := exists_collect hboxes hlib
  use lib', blocks, hcollect, hlib'
  rw [← hallotted.flatMap_nodeMuxes]
  apply Decodes.flatMap hall

/-! ### Clusters -/

variable {b : BlockGraph} {c : Cluster}

/-- The tables of multiplexers in front of pins fit the memory. -/
def PinTablesFit (b : BlockGraph) : Prop :=
  ∀ p ∈ b.pins, positionBytes * p.inputs.length ≤ tableLimit

instance (b : BlockGraph) : Decidable (PinTablesFit b) :=
  inferInstanceAs (Decidable (∀ p ∈ b.pins, positionBytes * p.inputs.length ≤ tableLimit))

/-- The multiplexer in front of a pin whose drivers have been selected is found, and can be
encoded. -/
theorem pinSetting_eq (hdriven : c.Driven b) (hfits : PinTablesFit b) {id : PinId}
    (hid : id < b.pins.size) :
  pinSetting b c id = .ok (pinMux? b c id) ∧ ∀ s, pinMux? b c id = some s → Encodable s
  := by
  obtain ⟨edges, s, hedges, hs, hselected⟩ := hdriven id hid
  by_cases hfew : edges.length < 2
  · have htwo : ¬ 2 ≤ edges.length := by omega
    constructor
    · rw [pinSetting, hedges, ok_bind, if_pos hfew, pinMux?, hedges, hs]
      simp only [if_neg htwo]
      rfl
    · intro m hm
      simp [pinMux?, hedges, hs, htwo] at hm
  · have htwo : 2 ≤ edges.length := by omega
    have hne : edges ≠ [] := by
      rintro rfl
      cases htwo
    obtain ⟨d, hd, hpath⟩ := hselected hne
    have hmux : pinMux? b c id = some ⟨edges.length, d.path⟩ := by
      simp [pinMux?, hedges, hs, htwo, hd]
    constructor
    · rw [pinSetting, hedges, ok_bind, if_neg hfew, Cluster.Local.pin, entry_eq_ok_iff.mpr hs,
        ok_bind, hmux, hd]
      rfl
    · intro m hm
      rw [hmux] at hm
      cases hm
      constructor
      · apply htwo
      · obtain ⟨p, hp, hactive⟩ := bind_eq_ok_iff.mp hedges
        obtain ⟨hlt, rfl⟩ := Array.getElem?_eq_some_iff.mp (entry_eq_ok_iff.mp hp)
        apply le_trans _ (hfits _ (Array.getElem_mem hlt))
        apply Nat.mul_le_mul_left
        apply length_le_of_filterMapM_eq_ok hactive
      · apply hpath

/-- The multiplexers in front of pins are encoded. -/
theorem exists_encodePins (hdriven : c.Driven b) (hfits : PinTablesFit b)
    (ht : circuit.topology.Bounded) {ids : List PinId} (hids : ∀ id ∈ ids, id < b.pins.size)
    {lib : Library} (hlib : lib.Sound) :
  ∃ lib' count, encodePins b circuit c lib ids
      = .ok (lib', count, ⟨(ids.filterMap (pinMux? b c)).flatMap (codeOf circuit)⟩)
    ∧ lib'.Sound
  := by
  induction ids generalizing lib with
  | nil => use lib, 0, rfl
  | cons id ids ih =>
    obtain ⟨hsetting, hencodable⟩ := pinSetting_eq hdriven hfits (hids id List.mem_cons_self)
    have hids' : ∀ id ∈ ids, id < b.pins.size := by
      intro id hid
      apply hids id (List.mem_cons_of_mem _ hid)
    rw [encodePins, hsetting, ok_bind, List.filterMap_cons]
    cases hmux : pinMux? b c id with
    | none => apply ih hids' hlib
    | some s =>
      obtain ⟨m, hm⟩ := (hencodable s hmux).exists_build ht
      obtain ⟨hlib', hbits⟩ := hlib.encode s.size circuit s.path
      rw [hm, ok_bind, Model.encode_of_build ht hm (hencodable s hmux).path] at hbits
      obtain ⟨lib'', count, hrest, hlib''⟩ := ih hids' hlib'
      use lib'', count + 1
      constructor
      · simp only [hbits, ok_bind, hrest, List.flatMap_cons, codeOf, hm]
        rfl
      · apply hlib''

/-- The bits of a cluster are read back as the drivers of its pins. -/
theorem exists_clusterBits (o : Options) (hdriven : c.Driven b) (hfits : PinTablesFit b)
    (ht : o.clusterMux.topology.Bounded) {lib : Library} (hlib : lib.Sound) :
  ∃ lib' block, clusterBits b o.clusterMux lib c = .ok (lib', block) ∧ lib'.Sound
    ∧ Decodes (clusterMuxes o b c) block.bits.toList
  := by
  obtain ⟨lib', count, hencode, hlib'⟩ := exists_encodePins hdriven hfits ht
    (fun id hid => List.mem_range.mp hid) hlib
  use lib', ⟨c.name, none, count,
    ⟨((List.range b.pins.size).filterMap (pinMux? b c)).flatMap (codeOf o.clusterMux)⟩⟩
  constructor
  · rw [clusterBits, hencode]
    rfl
  · use hlib'
    apply decodes_codeOf _ ht
    intro s hs
    obtain ⟨id, hid, hmux⟩ := List.mem_filterMap.mp hs
    apply (pinSetting_eq hdriven hfits (List.mem_range.mp hid)).2 s hmux

end RoutingFabric.Bitstream
