import RoutingFabric.Proofs.Bitstream.Blocks
import RoutingFabric.Proofs.Box.Build
import RoutingFabric.Proofs.Cluster.Selection
import RoutingFabric.Proofs.Fabric.Run

/-!
# Bitstreams are read back

Bitstreams of annotated fabrics are assembled. The bits of the routing boxes are the chunks of
their multiplexers in the order of the chain, and the bits of a cluster those of its pins, and
all of them are read back as the drivers that were selected.
-/

namespace RoutingFabric.Bitstream

open Mux RoutingGraph

/-! ### The chain -/

/-- The multiplexers of all boxes, in the order of the chain. -/
def boxMuxes (g : RoutingGraph) (o : Options) (d : DeviceBoxes) : List (Circuit × MuxSetting) :=
  d.switch.toList.flatMap (fun b => nodeMuxes g o.switchMux b.muxNodes)
    ++ (d.connectionX.toList ++ d.connectionY.toList).flatMap
      fun b => nodeMuxes g o.connectionMux b.muxNodes

/-- The number of bits of the chain. -/
def chainLength (g : RoutingGraph) (o : Options) (d : DeviceBoxes) : Nat :=
  (d.switch.toList.map fun b => bitLength g o.switchMux b.muxNodes).sum
    + (d.connectionX.toList.map fun b => bitLength g o.connectionMux b.muxNodes).sum
    + (d.connectionY.toList.map fun b => bitLength g o.connectionMux b.muxNodes).sum

/-- The boxes of a device have stretches of the chain as long as they need. -/
structure Placed (g : RoutingGraph) (o : Options) (d d' : DeviceBoxes) : Prop where
  switch : Allotted g o.switchMux (·.muxNodes) (·.span) d.switch.toList d'.switch.toList
  connectionX : Allotted g o.connectionMux (·.muxNodes) (·.span) d.connectionX.toList
    d'.connectionX.toList
  connectionY : Allotted g o.connectionMux (·.muxNodes) (·.span) d.connectionY.toList
    d'.connectionY.toList

variable {g : RoutingGraph} {o : Options} {d : DeviceBoxes}

/-- The boxes of a device take their stretches of the chain. -/
theorem exists_allocate (hg : g.Every Node.Sound) (hswitch : o.switchMux.topology.Bounded)
    (hconnection : o.connectionMux.topology.Bounded) (hd : d.Within g)
    (hfits : chainLength g o d < wordLimit) {lib : Library} (hlib : lib.Sound) :
  ∃ lib' total d', (DeviceBoxes.allocate g o.switchMux o.connectionMux lib).Gives d (lib', total) d'
    ∧ lib'.Sound ∧ Placed g o d d'
  := by
  rw [chainLength] at hfits
  obtain ⟨lib₁, switch, hs, hlib₁, hallotted⟩ := exists_layOut
    (fun (b : SwitchBox) span => { b with span }) (·.span) (fun _ _ => rfl) (fun _ _ => rfl)
    hg hswitch hd.switch hlib 0 (by omega)
  rw [Nat.zero_add] at hs
  obtain ⟨lib₂, connectionX, hx, hlib₂, hallottedX⟩ := exists_layOut
    (fun (b : ConnectionBox) span => { b with span }) (·.span) (fun _ _ => rfl) (fun _ _ => rfl)
    hg hconnection hd.connectionX hlib₁ _ (Nat.lt_of_le_of_lt (Nat.le_add_right _ _) hfits)
  obtain ⟨lib₃, connectionY, hy, hlib₃, hallottedY⟩ := exists_layOut
    (fun (b : ConnectionBox) span => { b with span }) (·.span) (fun _ _ => rfl) (fun _ _ => rfl)
    hg hconnection hd.connectionY hlib₂ _ hfits
  use lib₃, chainLength g o d, ⟨d.columns, d.rows, switch.toArray, connectionX.toArray,
    connectionY.toArray⟩
  constructor
  · simp [DeviceBoxes.allocate, SwitchBox.layOut, ConnectionBox.layOut, hs, hx, hy, chainLength]
  · use hlib₃
    constructor
    · apply hallotted
    · apply hallottedX
    · apply hallottedY

/-! ### Assembly -/

/-- The routing bits are those of the boxes, one after another. -/
theorem toList_routingBits (s : Bitstream) :
  s.routingBits.toList = s.boxes.flatMap (·.bits.toList)
  := by
  have h : ∀ (bits : ConfigBits) (blocks : List BlockBits),
      (blocks.foldl (fun bits block => bits ++ block.bits) bits).toList
        = bits.toList ++ blocks.flatMap (·.bits.toList) := by
    intro bits blocks
    induction blocks generalizing bits with
    | nil => simp
    | cons block blocks ih =>
      rw [List.foldl_cons, ih, ConfigBits.toList_append, List.append_assoc, List.flatMap_cons]
  apply h

/-- The bits of a cluster are the chunks of its pins, whose drivers have been selected. -/
def ClusterDecodes (f : Fabric) (o : Options) (c : Cluster) (block : BlockBits) : Prop :=
  ∃ b, f.blockGraphOf c = .ok b ∧ c.Driven b ∧ Decodes (clusterMuxes o b c) block.bits.toList

/-- The bits of the clusters of an annotated fabric are read back as the drivers of their pins. -/
theorem exists_collectClusters {f : Fabric} (hf : f.Annotated)
    (hpins : ∀ b ∈ f.blockGraphs, PinTablesFit b) (hcluster : o.clusterMux.topology.Bounded)
    {lib : Library} (hlib : lib.Sound) :
  ∃ lib' blocks,
    collect (fun lib c => do clusterBits (← f.blockGraphOf c) o.clusterMux lib c) lib
      f.clusters.toList = .ok (lib', blocks)
    ∧ List.Forall₂ (ClusterDecodes f o) f.clusters.toList blocks
  := by
  have hclusters : ∀ c ∈ f.clusters.toList, ∀ lib : Library, lib.Sound → ∃ lib' block,
      (do clusterBits (← f.blockGraphOf c) o.clusterMux lib c) = .ok (lib', block) ∧ lib'.Sound
        ∧ ClusterDecodes f o c block := by
    intro c hc lib hlib
    obtain ⟨id, hid⟩ := List.mem_iff_getElem?.mp hc
    rw [Array.getElem?_toList] at hid
    obtain ⟨b, hb, hdriven⟩ := hf.clusters id c hid
    have hmem : b ∈ f.blockGraphs := Array.mem_of_getElem? (entry_eq_ok_iff.mp hb)
    obtain ⟨lib', block, hencode, hlib', hdecodes⟩ :=
      exists_clusterBits o hdriven (hpins b hmem) hcluster hlib
    use lib', block
    constructor
    · rw [hb, ok_bind, hencode]
    · use hlib', b, hb, hdriven
  obtain ⟨lib', blocks, hcollect, -, hall⟩ := exists_collect hclusters hlib
  use lib', blocks, hcollect

/-- The bitstream of an annotated fabric is assembled, and is read back. -/
theorem exists_assemble {f : Fabric} (hf : f.Annotated)
    (hswitch : o.switchMux.topology.Bounded) (hconnection : o.connectionMux.topology.Bounded)
    (hcluster : o.clusterMux.topology.Bounded) (hpins : ∀ b ∈ f.blockGraphs, PinTablesFit b)
    (hd : d.Within f.graph) (hfits : chainLength f.graph o d < wordLimit) :
  ∃ a, assemble f o d = .ok a
    ∧ Decodes (boxMuxes f.graph o d) a.bitstream.routingBits.toList
    ∧ List.Forall₂ (ClusterDecodes f o) f.clusters.toList a.bitstream.clusters
  := by
  obtain ⟨lib, total, d', ⟨hallocate, hstate⟩, hlib, hplaced⟩ :=
    exists_allocate hf.nodes hswitch hconnection hd hfits Library.sound_empty
  obtain ⟨lib, switch, hs, hlib, hswitchDecodes⟩ := exists_collectBoxes hf.nodes hswitch hlib
    hd.switch hplaced.switch SwitchBox.name
  have hwithin : ∀ b ∈ d.connectionX.toList ++ d.connectionY.toList, ∀ id ∈ b.muxNodes,
      ∃ n, f.graph.node id = .ok n := by
    intro b hb
    rcases List.mem_append.mp hb with hb | hb
    · apply hd.connectionX b hb
    · apply hd.connectionY b hb
  obtain ⟨lib, connection, hc, hlib, hconnectionDecodes⟩ := exists_collectBoxes hf.nodes
    hconnection hlib hwithin (hplaced.connectionX.append hplaced.connectionY) ConnectionBox.name
  obtain ⟨lib, clusters, hclusters, hall⟩ := exists_collectClusters hf hpins hcluster hlib
  use ⟨⟨switch ++ connection, clusters⟩, d', total, lib⟩
  constructor
  · simp only [assemble, hallocate, hstate, ok_bind, hs, hc, hclusters]
    rfl
  constructor
  · rw [toList_routingBits, List.flatMap_append]
    apply hswitchDecodes.append hconnectionDecodes
  · apply hall

/-- When a fabric has been prepared and a run on it succeeds, its bitstream is assembled, with
boxes built by any number of threads and with multiplexers of any circuits whose bits can be
counted. The routing bits are the chunks of the multiplexers of the boxes, each of which is read
back as the driver that its node selects, or as the first one if it selects none. The bits of a
cluster are the chunks of its pins, which are read back as the drivers that the pins select. -/
theorem decodes_of_assemble {f₀ f₁ f : Fabric} {run : Options} {report : Report}
    (hprepare : Fabric.prepare.Gives f₀ () f₁) (hrun : (Fabric.annotate run).Gives f₁ report f)
    (hwidth : f.grid.width < wordLimit) (hheight : f.grid.height < wordLimit)
    (hswitch : o.switchMux.topology.Bounded) (hconnection : o.connectionMux.topology.Bounded)
    (hcluster : o.clusterMux.topology.Bounded) (hpins : ∀ b ∈ f.blockGraphs, PinTablesFit b)
    (threads : Nat)
    (hfits : ∀ d, DeviceBoxes.build f.graph f.grid threads = .ok d →
      chainLength f.graph o d < wordLimit) :
  ∃ d a, DeviceBoxes.build f.graph f.grid threads = .ok d ∧ d.Within f.graph
    ∧ assemble f o d = .ok a
    ∧ Decodes (boxMuxes f.graph o d) a.bitstream.routingBits.toList
    ∧ List.Forall₂ (ClusterDecodes f o) f.clusters.toList a.bitstream.clusters
  := by
  have hf := Fabric.annotated_of_annotate hprepare hrun
  have hcolumns : DeviceBoxes.columnCount f.grid < wordLimit := by
    rw [DeviceBoxes.columnCount, Grid.lastX]
    simp only [wordLimit] at hwidth ⊢
    omega
  have hrows : DeviceBoxes.rowCount f.grid < wordLimit := by
    rw [DeviceBoxes.rowCount, Grid.lastY]
    simp only [wordLimit] at hheight ⊢
    omega
  obtain ⟨d, hbuild, hwithin⟩ := DeviceBoxes.exists_build (g := f.graph) hcolumns hrows threads
  obtain ⟨a, hassemble, hboxes, hclusters⟩ := exists_assemble hf hswitch hconnection hcluster hpins
    hwithin (hfits d hbuild)
  use d, a

/-- Two wires that may drive a third, and a pin that the second and the third wire may drive. -/
def laneGraph : RoutingGraph where
  switches := #[{ name := "switch" }]
  nodes := #[
    { kind := .channelX, low := ⟨0, 0⟩, high := ⟨0, 0⟩, ptc := 0, direction := some .increasing,
      edges := [⟨2, 0⟩] },
    { kind := .channelX, low := ⟨0, 0⟩, high := ⟨0, 0⟩, ptc := 1, direction := some .increasing,
      edges := [⟨2, 0⟩, ⟨3, 0⟩] },
    { kind := .channelX, low := ⟨1, 0⟩, high := ⟨1, 0⟩, ptc := 2, direction := some .increasing,
      fanIn := 2, edges := [⟨3, 0⟩] },
    { kind := .inPin, low := ⟨1, 0⟩, high := ⟨1, 0⟩, ptc := 3, side := some .top, fanIn := 2 }]
  lookup := [0, 1, 2, 3]

/-- A net on the second and the third wire and the pin. -/
def laneNets : NetTable where
  nets := #[{ name := "x", logical := 0, trace := [1, 2, 3] },
    { name := "y", logical := 1, dedicated := true }]
  logicals := #[⟨"x"⟩, ⟨"y"⟩]

/-- The wires next to a block with two inputs. -/
def laneFabric : Fabric where
  grid := ⟨2, 1⟩
  graph := laneGraph
  blockGraphs := #[Cluster.eitherBlock]
  clusters := #[Cluster.eitherCluster]
  nets := laneNets

/-- The graph with all drivers known. -/
def indexedLanes : RoutingGraph := ((do buildDriverIndex; identifyDriverSwitches).run laneGraph).state

/-- The fabric after preparation. -/
def preparedLanes : Fabric :=
  ((Phase.each Fabric.prepareCluster [0]).run { laneFabric with graph := indexedLanes }).state

/-- The fabric after a run. -/
def annotatedLanes : Fabric := ((Fabric.annotate {}).run preparedLanes).state

/-- The fabric is prepared. -/
theorem prepare_laneFabric :
  Fabric.prepare.Gives laneFabric () preparedLanes
  := by
  apply Fabric.prepare_of_inOrder rfl (g := indexedLanes)
  · decide
  · constructor
    · decide +kernel
    · rfl
  · decide +kernel
  · constructor
    · decide +kernel
    · rfl

/-- The bitstream of the fabric, with boxes built by two threads, is read back. -/
theorem decodes_of_assemble_lanes :
  Fabric.prepare.Gives laneFabric () preparedLanes
    ∧ (Fabric.annotate {}).Gives preparedLanes ⟨⟨1, 1, 3⟩, 1, 0, 1, 0⟩ annotatedLanes
    ∧ ∃ d a, DeviceBoxes.build annotatedLanes.graph annotatedLanes.grid 2 = .ok d
      ∧ d.Within annotatedLanes.graph
      ∧ assemble annotatedLanes {} d = .ok a
      ∧ Decodes (boxMuxes annotatedLanes.graph {} d) a.bitstream.routingBits.toList
      ∧ List.Forall₂ (ClusterDecodes annotatedLanes {}) annotatedLanes.clusters.toList
        a.bitstream.clusters
  := by
  have hrun : (Fabric.annotate {}).Gives preparedLanes ⟨⟨1, 1, 3⟩, 1, 0, 1, 0⟩ annotatedLanes := by
    constructor
    · decide +kernel
    · rfl
  have hlength : (DeviceBoxes.build annotatedLanes.graph annotatedLanes.grid 2).map
      (chainLength annotatedLanes.graph {}) = .ok 2 := by
    decide +kernel
  have htree : Topology.Bounded .tree := by
    intro levels h
    cases h
  use prepare_laneFabric, hrun
  apply decodes_of_assemble prepare_laneFabric hrun (by decide +kernel) (by decide +kernel) htree
    htree htree (by decide +kernel)
  intro d hd
  rw [hd] at hlength
  rw [Except.ok.inj hlength]
  decide

end RoutingFabric.Bitstream
