import RoutingFabric.Proofs.Bitstream.Partition
import RoutingFabric.Proofs.Box.Names
import RoutingFabric.Proofs.Command.Annotate
import RoutingFabric.Proofs.Fabric.Run
import RoutingFabric.Proofs.Files.Places
import RoutingFabric.Proofs.Snapshot.RoundTrip

/-!
# Files of blocks

When all blocks are selected and the command succeeds, the bits of each block have been written to
the path of its name. A path is left with the last block whose path leads to the same place. Boxes
have places of their own, and so have clusters if their names are distinct, have no slashes, and are
not names of boxes.
-/

namespace RoutingFabric.Command.Annotate

open Files Export

/-- The path of the bits of a block. -/
def pathOf (a : Annotate) (b : BlockBits) : String := join a.blockFolder (b.name ++ bitsEnding)

/-- The place of the bits of a block. -/
def blockPlace (a : Annotate) (b : BlockBits) : Place := placeOf (a.pathOf b)

/-- The last block of a bitstream whose bits have a place. -/
def lastBlock (a : Annotate) (s : Bitstream) (place : Place) : Option BlockBits :=
  s.blocks.reverse.find? fun b => a.blockPlace b = place

/-- The names of clusters are distinct, have no slashes and are not names of boxes. -/
structure Apart (names : List String) : Prop where
  distinct : names.Nodup
  slashless : ∀ name ∈ names, '/' ∉ name.toList
  boxless : ∀ name ∈ names, ¬ Box.IsName name

/-- The bits of each block have been written to its path, and a path is left with those of the last
block that has the same place. Boxes have distinct places. -/
structure Stored (a : Annotate) (s : Bitstream) (folder : Folder) : Prop where
  targets : ∀ b ∈ s.blocks, folder.target (a.pathOf b) = .ok (a.blockPlace b)
  last : ∀ b ∈ s.blocks, ∃ b', a.lastBlock s (a.blockPlace b) = some b'
    ∧ folder.read (a.pathOf b) = .ok (.file (.plain (bitsText b')))
  boxes : (s.boxes.map a.blockPlace).Nodup

variable {a : Annotate} {folder folder' : Folder} {o : Options} {f₀ f : Fabric} {s : Bitstream}
variable {d : DeviceBoxes} {log : Option String} {response : Response}

/-! ### Names of blocks -/

/-- The blocks of an assembled bitstream have the names of the boxes and the clusters. -/
theorem names_of_assemble {assembly : Bitstream.Assembly}
    (h : Bitstream.assemble f o d = .ok assembly) :
  assembly.bitstream.boxes.map (·.name) = d.names
    ∧ assembly.bitstream.clusters.map (·.name) = f.clusters.toList.map (·.name)
  := by
  obtain ⟨⟨lib, hallocate⟩, hfills⟩ := Bitstream.fills_of_assemble h
  obtain ⟨-, hunplaced, -⟩ := DeviceBoxes.laidOut_of_allocate Mux.Library.sound_empty hallocate
  constructor
  · rw [← DeviceBoxes.names_eq_of_unplaced hunplaced,
      ← DeviceBoxes.map_name_links o.switchMux o.connectionMux]
    apply map_eq_of_forall₂ hfills
    intro box block hfill
    apply hfill.name
  · obtain ⟨⟨lib, total⟩, -, h⟩ := bind_eq_ok_iff.mp h
    obtain ⟨⟨lib₁, switch⟩, -, h⟩ := bind_eq_ok_iff.mp h
    obtain ⟨⟨lib₂, connection⟩, -, h⟩ := bind_eq_ok_iff.mp h
    obtain ⟨⟨lib₃, clusters⟩, hclusters, h⟩ := bind_eq_ok_iff.mp h
    cases pure_eq_ok_iff.mp h
    have hall := (Bitstream.forall₂_of_collect (fun _ => True)
      (P := fun (c : Cluster) block => block.name = c.name) ?_ trivial hclusters).2
    · apply map_eq_of_forall₂ hall
      intro c block hname
      apply hname
    · intro c lib lib' block _ hbits
      obtain ⟨b, -, hbits⟩ := bind_eq_ok_iff.mp hbits
      obtain ⟨⟨_, _, _⟩, -, hbits⟩ := bind_eq_ok_iff.mp hbits
      cases pure_eq_ok_iff.mp hbits
      exact ⟨trivial, rfl⟩

/-- The name of a file of bits tells the name of the block. -/
theorem append_bitsEnding_inj {name name' : String} :
  name ++ bitsEnding = name' ++ bitsEnding ↔ name = name'
  := by rw [← String.toList_inj, String.toList_append, String.toList_append, List.append_left_inj,
    String.toList_inj]

/-- The bits of a block whose name has no slash are in the folder of the blocks. -/
theorem blockPlace_eq (a : Annotate) {b : BlockBits} (h : '/' ∉ b.name.toList) :
  a.blockPlace b = placeOf a.blockFolder ++ [b.name ++ bitsEnding]
  := by
  have hlength : 5 ≤ (b.name ++ bitsEnding).toList.length := by simp [bitsEnding]
  have hne : ∀ text : String, text.toList.length < 5 → b.name ++ bitsEnding ≠ text := by
    rintro _ hlt rfl
    omega
  apply placeOf_join
  constructor
  case ne_empty => apply hne "" (by decide)
  case ne_dot => apply hne "." (by decide)
  case ne_dots => apply hne ".." (by decide)
  case slashless => simp [bitsEnding, h]

/-- Blocks with distinct names without slashes have distinct places. -/
theorem nodup_blockPlace (a : Annotate) {blocks : List BlockBits}
    (hnodup : (blocks.map (·.name)).Nodup) (h : ∀ b ∈ blocks, '/' ∉ b.name.toList) :
  (blocks.map a.blockPlace).Nodup
  := by
  have hplaces : blocks.map a.blockPlace
      = (blocks.map (·.name)).map fun name => placeOf a.blockFolder ++ [name ++ bitsEnding] := by
    rw [List.map_map]
    apply List.map_congr_left
    intro b hb
    apply blockPlace_eq a (h b hb)
  rw [hplaces]
  apply List.Nodup.map _ hnodup
  intro name name' heq
  apply append_bitsEnding_inj.mp
  apply List.singleton_inj.mp (List.append_cancel_left heq)

/-- The boxes of a bitstream have distinct names of boxes, and its clusters have the names that they
have in the fabric. -/
theorem Done.named (h : Done a folder o f₀ f s folder') :
  (s.boxes.map (·.name)).Nodup ∧ (∀ b ∈ s.boxes, Box.IsName b.name)
    ∧ s.clusters.map (·.name) = f.clusters.toList.map (·.name)
  := by
  obtain ⟨-, d, assembly, hd, hassembly, rfl⟩ := gives_assembling_iff.mp h.assembled
  obtain ⟨hboxes, hclusters⟩ := names_of_assemble hassembly
  refine ⟨?_, ?_, hclusters⟩
  · rw [hboxes]
    apply DeviceBoxes.nodup_names hd
  · intro b hb
    apply DeviceBoxes.isName_of_mem_names hd
    rw [← hboxes]
    apply List.mem_map_of_mem hb

/-! ### Files of blocks -/

/-- Where all blocks are selected, the bits of each are written. -/
theorem blockFiles_eq (hall : Selection.everything ∈ a.blocks.names) (s : Bitstream) :
  a.blockFiles s = s.blocks.map fun b => (a.pathOf b, bitsText b)
  := by
  have hselects : ∀ name, a.blocks.selects name = true := by
    intro name
    simp [Selection.selects, hall]
  simp only [blockFiles, Separate.filesOf, hselects, List.filter_true, List.map_map]
  rfl

/-- The last file of the blocks at a place is that of the last block there. -/
theorem lastAt_blocks (a : Annotate) (s : Bitstream) (place : Place) :
  lastAt (s.blocks.map fun b => (a.pathOf b, bitsText b)) place
    = (a.lastBlock s place).map fun b => (a.pathOf b, bitsText b)
  := by rw [lastAt, ← List.map_reverse, List.find?_map, lastBlock]; rfl

/-- What is stored by a command that selects all blocks. -/
theorem Done.stored (h : Done a folder o f₀ f s folder')
    (hall : Selection.everything ∈ a.blocks.names) :
  Stored a s folder'
  := by
  obtain ⟨files, hfiles, hrun⟩ := h.written
  obtain ⟨clusterFiles, -, heq⟩ := bind_eq_ok_iff.mp hfiles
  cases pure_eq_ok_iff.mp heq
  rw [blockFiles_eq hall] at hrun
  have hwritten := Folder.written_of_run hrun
  have hmem : ∀ b ∈ s.blocks, (a.pathOf b, bitsText b)
      ∈ clusterFiles ++ s.blocks.map fun b => (a.pathOf b, bitsText b) := by
    intro b hb
    apply List.mem_append_right _ (List.mem_map_of_mem hb)
  constructor
  case targets =>
    intro b hb
    apply hwritten.targets _ (hmem b hb)
  case last =>
    intro b hb
    obtain ⟨y, hy, hread⟩ := hwritten.exists_read (hmem b hb)
    obtain ⟨y', hy'⟩ := exists_lastAt
      (List.mem_map_of_mem (f := fun b => (a.pathOf b, bitsText b)) hb)
    rw [lastAt_append, hy', Option.some_or] at hy
    cases hy
    rw [lastAt_blocks] at hy'
    obtain ⟨b', hb', rfl⟩ := Option.map_eq_some_iff.mp hy'
    exact ⟨b', hb', hread⟩
  case boxes =>
    obtain ⟨hnodup, hnames, -⟩ := h.named
    apply nodup_blockPlace a hnodup
    intro b hb
    apply Box.not_mem_of_isName (hnames b hb)

/-- Each block has its bits at its path exactly if blocks of one place have the same bits. -/
theorem Stored.forall_own_iff (h : Stored a s folder) :
  (∀ b ∈ s.blocks, folder.read (a.pathOf b) = .ok (.file (.plain (bitsText b))))
    ↔ ∀ b ∈ s.blocks, ∀ b' ∈ s.blocks, a.blockPlace b = a.blockPlace b' → bitsText b = bitsText b'
  := by
  constructor
  · intro hown b hb b' hb' hplace
    obtain ⟨last, hlast, hread⟩ := h.last b hb
    obtain ⟨last', hlast', hread'⟩ := h.last b' hb'
    rw [hplace, hlast'] at hlast
    cases hlast
    simp only [hown b hb, Except.ok.injEq, Entry.file.injEq, Content.plain.injEq] at hread
    simp only [hown b' hb', Except.ok.injEq, Entry.file.injEq, Content.plain.injEq] at hread'
    rw [hread, hread']
  · intro hsame b hb
    obtain ⟨b', hb', hread⟩ := h.last b hb
    have hmem := List.mem_reverse.mp (List.mem_of_find?_eq_some hb')
    have hplace : a.blockPlace b' = a.blockPlace b := by simpa using List.find?_some hb'
    rw [hread, hsame b' hmem b hb hplace]

/-- Blocks of clusters whose names are distinct, have no slashes and are not names of boxes have
distinct places. -/
theorem Done.nodup_blockPlace (h : Done a folder o f₀ f s folder')
    (hapart : Apart (f.clusters.toList.map (·.name))) :
  (s.blocks.map a.blockPlace).Nodup
  := by
  obtain ⟨hnodup, hnames, hclusters⟩ := h.named
  rw [← hclusters] at hapart
  apply Annotate.nodup_blockPlace
  · rw [Bitstream.blocks, List.map_append, List.nodup_append]
    refine ⟨hnodup, hapart.distinct, ?_⟩
    rintro _ hbox _ hcluster rfl
    obtain ⟨b, hb, hname⟩ := List.mem_map.mp hbox
    apply hapart.boxless _ hcluster
    rw [← hname]
    apply hnames b hb
  · intro b hb
    rcases List.mem_append.mp hb with hb | hb
    · apply Box.not_mem_of_isName (hnames b hb)
    · apply hapart.slashless _ (List.mem_map_of_mem hb)

/-- A command that selects all blocks and succeeds has annotated a fabric and assembled its
bitstream. The bits of each block have been written to its path, which is left with those of the
last block that has the same place. So each block has its bits exactly if blocks of one place have
the same bits, and blocks have places of their own where the names of clusters are distinct, have no
slashes and are not names of boxes. -/
theorem blocks_stored (hall : Selection.everything ∈ a.blocks.names)
    (hrun : (a.run Folder.disk log).run folder = (response, folder'))
    (hok : response.code = Response.succeeded) :
  (∃ o f₀ f s, Done a folder o f₀ f s folder')
    ∧ ∀ o f₀ f s, Done a folder o f₀ f s folder' →
      Stored a s folder' ∧ s.clusters.map (·.name) = f.clusters.toList.map (·.name)
        ∧ ((∀ b ∈ s.blocks, folder'.read (a.pathOf b) = .ok (.file (.plain (bitsText b))))
          ↔ ∀ b ∈ s.blocks, ∀ b' ∈ s.blocks, a.blockPlace b = a.blockPlace b' →
            bitsText b = bitsText b')
        ∧ (Apart (f.clusters.toList.map (·.name)) → (s.blocks.map a.blockPlace).Nodup
          ∧ ∀ b ∈ s.blocks, folder'.read (a.pathOf b) = .ok (.file (.plain (bitsText b))))
  := by
  refine ⟨exists_done_of_run hrun hok, ?_⟩
  intro o f₀ f s hdone
  have hstored := hdone.stored hall
  refine ⟨hstored, hdone.named.2.2, hstored.forall_own_iff, ?_⟩
  intro hapart
  have hplaces := hdone.nodup_blockPlace hapart
  refine ⟨hplaces, hstored.forall_own_iff.mpr ?_⟩
  intro b hb b' hb' heq
  rw [List.inj_on_of_nodup_map hplaces hb hb' heq]

/-- A block with a multiplexer of two inputs, and none selected. -/
def choosingGraph : BlockGraph where
  name := "clb"
  blocks := #[
    { name := "clb", type := "clb"
      modes := [{ name := "on", children := [1, 2], interconnects := [0] }] },
    { name := "a[0]", type := "a", parent := some (0, 0), depth := 1, pins := [0, 1] },
    { name := "b[0]", type := "b", parent := some (0, 0), depth := 1, pins := [2] }]
  pins := #[
    { block := 1, port := "out", bit := 0, kind := .output, outputs := [0] },
    { block := 1, port := "out", bit := 1, kind := .output, outputs := [1] },
    { block := 2, port := "in", bit := 0, kind := .input, inputs := [0, 1] }]
  edges := #[⟨0, 2, 0⟩, ⟨1, 2, 0⟩]
  interconnects := #[{ name := "mux", kind := .fullMux, owner := 0, mode := 0, edges := [0, 1] }]

/-- A block without anything in it. -/
def hollowGraph : BlockGraph where
  name := "io"
  blocks := #[{ name := "io", type := "io" }]

/-- A cluster of each of the two types, the second one with the given name. -/
def pairFabric (second : String) : Fabric where
  grid := ⟨1, 1⟩
  blockGraphs := #[choosingGraph, hollowGraph]
  clusters := #[
    { name := "c0", blockGraph := 0, place := ⟨0, 0⟩, modes := #[some 0, none, none]
      pinNets := #[none, none, none] },
    { name := second, blockGraph := 1, place := ⟨0, 0⟩, modes := #[none] }]

/-- All blocks of a fabric are selected. -/
def keepAll : Annotate where
  fabric := "fabric.json"
  form := .raw
  options := none
  clusters := {}
  clusterFolder := ""
  blocks := ⟨[Selection.everything]⟩
  blockFolder := ""
  threads := none

/-- The folder with the fabric. -/
def pairFolder (second : String) : Folder :=
  Folder.empty.putFile ["fabric.json"]
    (Snapshot.Form.raw.content (Snapshot.write (pairFabric second)))

/-- The fabric after preparation. -/
def preparedPair (second : String) : Fabric :=
  ((Phase.each Fabric.prepareCluster [0, 1]).run (pairFabric second)).state

/-- The fabric after a run. -/
def annotatedPair (second : String) : Fabric :=
  ((Fabric.annotate {}).run (preparedPair second)).state

/-- The bitstream of the fabric, in which only the first cluster has a bit. -/
def pairBits (second : String) : Bitstream where
  boxes := [⟨"sb_0_0", some {}, 0, .empty⟩, ⟨"cbx_0_0", some {}, 0, .empty⟩,
    ⟨"cby_0_0", some {}, 0, .empty⟩]
  clusters := [⟨"c0", none, 1, ⟨[false]⟩⟩, ⟨second, none, 0, .empty⟩]

/-- The folder after the bits are written. -/
def pairLeft (second : String) : Folder :=
  ((Folder.disk.writeAll (keepAll.blockFiles (pairBits second))).run (pairFolder second)).2

/-- The fabric is read. -/
theorem load_pair (second : String) :
  (Snapshot.load Folder.disk .raw "fabric.json").run (pairFolder second)
    = (.ok (pairFabric second), pairFolder second)
  := by
  have hbare : (pairFabric second).bare = pairFabric second := by
    simp [Fabric.bare, RoutingGraph.bare, Cluster.bare, pairFabric]
  have hfits : (Snapshot.fabricValue (pairFabric second)).Fits := by
    simp [Snapshot.fabricValue, pairFabric, Snapshot.gridValue, Snapshot.graphValue,
      Snapshot.blockGraphValue, choosingGraph, hollowGraph, Snapshot.blockValue, Snapshot.modeValue,
      Snapshot.pinValue, Snapshot.blockEdgeValue, Snapshot.interconnectValue, Snapshot.clusterValue,
      Snapshot.optionalNumbers, Snapshot.netsValue, Snapshot.numbers, Snapshot.numberPair,
      Snapshot.nameIn, wordLimit]
  have htarget : Folder.empty.target "fabric.json" = .ok ["fabric.json"] := by decide +kernel
  have hcontent := Snapshot.ofContent_content .raw hfits
  rw [hbare] at hcontent
  rw [Snapshot.load, StateT.run_bind, Folder.run_read, pairFolder, Folder.read_putFile htarget,
    ← hcontent]
  rfl

/-- The fabric is prepared and annotated, whether the second cluster has a name of its own or not.
-/
theorem annotate_pair {second : String} (h : second = "c1" ∨ second = "c0") :
  (annotating {}).Gives (pairFabric second) ⟨⟨0, 0, 0⟩, 2, 0, 1, 0⟩ (annotatedPair second)
  := by
  have hprepare : Fabric.prepare.Gives (pairFabric second) () (preparedPair second) := by
    apply Fabric.prepare_of_empty rfl
    · rcases h with rfl | rfl <;> decide +kernel
    · constructor
      · rcases h with rfl | rfl <;> decide +kernel
      · rfl
  have hrun : (Fabric.annotate {}).Gives (preparedPair second) ⟨⟨0, 0, 0⟩, 2, 0, 1, 0⟩
      (annotatedPair second) := by
    constructor
    · rcases h with rfl | rfl <;> decide +kernel
    · rfl
  exact Phase.gives_bind_iff.mpr ⟨(), _, hprepare, hrun⟩

/-- The bitstream is assembled. -/
theorem assemble_pair {second : String} (h : second = "c1" ∨ second = "c0") :
  (assembling {}).Gives (annotatedPair second) (pairBits second) (annotatedPair second)
  := by
  have hbits : (do
      let d ← DeviceBoxes.build (annotatedPair second).graph (annotatedPair second).grid 1
      let assembly ← Bitstream.assemble (annotatedPair second) {} d
      return assembly.bitstream) = Except.ok (pairBits second) := by
    rcases h with rfl | rfl <;> decide +kernel
  obtain ⟨d, hd, hbits⟩ := bind_eq_ok_iff.mp hbits
  obtain ⟨assembly, hassembly, hbits⟩ := bind_eq_ok_iff.mp hbits
  exact gives_assembling_iff.mpr ⟨rfl, d, assembly, hd, hassembly, (pure_eq_ok_iff.mp hbits).symm⟩

/-- The command does its work, whether the second cluster has a name of its own or not. -/
theorem done_pair {second : String} (h : second = "c1" ∨ second = "c0") :
  Done keepAll (pairFolder second) {} (pairFabric second) (annotatedPair second) (pairBits second)
    (pairLeft second)
  := by
  constructor
  case options => exact ⟨{}, rfl, rfl⟩
  case fabric => apply load_pair
  case annotated => exact ⟨_, annotate_pair h⟩
  case assembled => apply assemble_pair h
  case written =>
    refine ⟨keepAll.blockFiles (pairBits second), ?_, Prod.ext ?_ ?_⟩
    · rcases h with rfl | rfl <;> decide +kernel
    · rcases h with rfl | rfl <;> decide +kernel
    · dsimp only [pairLeft]

/-- Where the second cluster has a name of its own, all blocks keep their bits. -/
theorem stored_pair :
  ∃ response, Selection.everything ∈ keepAll.blocks.names
    ∧ (keepAll.run Folder.disk none).run (pairFolder "c1") = (response, pairLeft "c1")
    ∧ response.code = Response.succeeded
    ∧ ∀ b ∈ (pairBits "c1").blocks,
      (pairLeft "c1").read (keepAll.pathOf b) = .ok (.file (.plain (bitsText b)))
  := by
  have hall : Selection.everything ∈ keepAll.blocks.names := by decide
  have hdone := done_pair (.inl rfl)
  obtain ⟨response, hrun, hok⟩ := hdone.exists_run none
  obtain ⟨-, hstored⟩ := blocks_stored hall hrun hok
  obtain ⟨-, hnames, -, hapart⟩ := hstored _ _ _ _ hdone
  refine ⟨response, hall, hrun, hok, (hapart ?_).2⟩
  rw [← hnames]
  constructor
  case distinct => decide
  case slashless => decide
  case boxless =>
    have hplain : ∀ name ∈ (pairBits "c1").clusters.map (·.name), '_' ∉ name.toList := by decide
    intro name hname hbox
    apply hplain name hname (Box.mem_of_isName hbox)

/-- Where both clusters are called the same, the bits of the first one are lost. -/
theorem lost_bits :
  ∃ response, Selection.everything ∈ keepAll.blocks.names
    ∧ (keepAll.run Folder.disk none).run (pairFolder "c0") = (response, pairLeft "c0")
    ∧ response.code = Response.succeeded
    ∧ Done keepAll (pairFolder "c0") {} (pairFabric "c0") (annotatedPair "c0") (pairBits "c0")
      (pairLeft "c0")
    ∧ ∃ b ∈ (pairBits "c0").clusters, bitsText b = "0\n"
      ∧ (pairLeft "c0").read (keepAll.pathOf b) = .ok (.file (.plain "\n"))
  := by
  have hdone := done_pair (.inr rfl)
  obtain ⟨response, hrun, hok⟩ := hdone.exists_run none
  refine ⟨response, by decide, hrun, hok, hdone, ⟨"c0", none, 1, ⟨[false]⟩⟩, ?_, ?_, ?_⟩
  · apply List.mem_cons_self
  · decide +kernel
  · decide +kernel

end RoutingFabric.Command.Annotate
