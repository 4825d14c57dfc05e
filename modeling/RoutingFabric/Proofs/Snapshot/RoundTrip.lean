import RoutingFabric.Proofs.Files.Folder
import RoutingFabric.Proofs.Json.Record
import RoutingFabric.Snapshot.File

/-!
# Snapshots are read back

A fabric whose numbers fit machine words is read back from its snapshot, but for what is derived:
that is not written, and it is read as not there. The records are taken one by one, from the inside
out.
-/

namespace RoutingFabric.Snapshot

open Json Json.Decode Json.Fields

/-! ### Names, pairs and lists of numbers -/

section Names

variable {α : Type} [DecidableEq α] {names : List (String × α)}

/-- A value is read back from its name if it has one and no name is given twice. -/
theorem name_nameIn {a : α} (hnames : (names.map Prod.fst).Nodup) (ha : a ∈ names.map Prod.snd) :
  name names (nameIn names a) = some a
  := by
  obtain ⟨entry, hmem, rfl⟩ := List.mem_map.mp ha
  cases hfind : names.find? (·.2 = entry.2) with
  | none =>
    have hne := List.find?_eq_none.mp hfind entry hmem
    simp at hne
  | some found =>
    have heq : found.2 = entry.2 := by simpa using List.find?_some hfind
    obtain ⟨before, after, rfl⟩ := List.append_of_mem (List.mem_of_find?_eq_some hfind)
    have hlookup : (before ++ found :: after).lookup found.1 = some found.2 := by
      rw [List.lookup_eq_some_iff]
      use before, after, rfl
      intro p hp
      rw [List.map_append, List.map_cons, List.nodup_append] at hnames
      have hne := hnames.2.2 p.1 (List.mem_map_of_mem hp) found.1 List.mem_cons_self
      simpa using Ne.symm hne
    rw [nameIn, hfind, Value.ofOption, name, hlookup, heq]

/-- What is written for a name stands for itself. -/
@[simp] theorem plain_nameIn (a : α) : Plain (nameIn names a) := by
  simp [nameIn]

end Names

/-- A pair of numbers that fit is read back. -/
theorem pair_numberPair {p : Nat × Nat} (h : (numberPair p).Fits) :
  pair number number (numberPair p) = some p
  := by
  simp only [numberPair, Value.fits_array_iff, List.forall_mem_cons, Value.fits_number_iff] at h
  obtain ⟨hfst, hsnd, -⟩ := h
  rw [numberPair, pair, number_number hfst, number_number hsnd]
  rfl

/-- A list of numbers that fit is read back. -/
theorem list_numbers {ns : List Nat} (h : (numbers ns).Fits) :
  list number (numbers ns) = some ns
  := by
  rw [numbers, Value.fits_ofList_iff] at h
  rw [numbers, list_ofList fun n hn => number_number (Value.fits_number_iff.mp (h n hn)),
    List.map_id']

/-- A number that may be missing is read back if it fits. -/
theorem nullable_number {o : Option Nat} (h : (Value.ofOption .number o).Fits) :
  nullable number (.ofOption .number o) = some o
  := by
  rw [Value.fits_ofOption_iff] at h
  rw [nullable_ofOption (fun n hn => number_number (Value.fits_number_iff.mp (h n hn))) rfl,
    Option.map_id_fun', id]

/-- A table of numbers that may be missing is read back if they fit. -/
theorem table_optionalNumbers {ns : Array (Option Nat)} (h : (optionalNumbers ns).Fits) :
  table (nullable number) (optionalNumbers ns) = some ns
  := by
  rw [optionalNumbers, Value.fits_ofList_iff] at h
  rw [optionalNumbers, table_ofList fun o ho => nullable_number (h o ho),
    Array.map_id']

/-! ### The routing graph -/

/-- A grid is read back. -/
theorem grid_gridValue {g : Grid} (h : (gridValue g).Fits) : grid (gridValue g) = some g := by
  simp only [gridValue, Value.fits_object_iff, List.forall_mem_cons, Value.fits_number_iff] at h
  obtain ⟨hwidth, hheight, -⟩ := h
  simp [grid, gridValue, hwidth, hheight]

/-- A switch type is read back. -/
theorem switch_switchValue (s : Switch) : switch (switchValue s) = some s := by
  simp [switch, switchValue]

/-- An edge is read back. -/
theorem edge_edgeValue {e : RoutingGraph.Edge} (h : (edgeValue e).Fits) :
  edge (edgeValue e) = some e
  := by
  simp only [edgeValue, Value.fits_object_iff, List.forall_mem_cons, Value.fits_number_iff] at h
  obtain ⟨hsink, hswitch, -⟩ := h
  simp [edge, edgeValue, hsink, hswitch]

/-- A kind of routing resources is read back. -/
theorem name_kindValue (k : RoutingGraph.Kind) : name kindNames (kindValue k) = some k := by
  apply name_nameIn (by decide)
  cases k <;> decide

/-- A direction is read back. -/
theorem name_directionValue (d : Direction) :
  name directionNames (directionValue d) = some d
  := by
  apply name_nameIn (by decide)
  cases d <;> decide

/-- A side is read back. -/
theorem name_sideValue (s : Side) : name sideNames (sideValue s) = some s := by
  apply name_nameIn (by decide)
  cases s <;> decide

/-- A node is read back without what is derived. -/
theorem node_nodeValue {n : RoutingGraph.Node} (h : (nodeValue n).Fits) :
  node (nodeValue n) = some n.bare
  := by
  simp only [nodeValue, Value.fits_object_iff, List.forall_mem_cons, Value.fits_number_iff,
    Value.fits_ofList_iff] at h
  obtain ⟨-, hxlow, hylow, hxhigh, hyhigh, hptc, -, -, hfanIn, hedges, -⟩ := h
  have hdirection := nullable_ofOption (o := n.direction) (fun d _ => name_directionValue d) rfl
  have hside := nullable_ofOption (o := n.side) (fun s _ => name_sideValue s) rfl
  have hlist := list_ofList fun e he => edge_edgeValue (hedges e he)
  simp [node, nodeValue, name_kindValue, hxlow, hylow, hxhigh, hyhigh, hptc, hdirection, hside,
    hfanIn, hlist, RoutingGraph.Node.bare, RoutingGraph.Node.unannotated]

/-- A routing graph is read back without what is derived. -/
theorem graph_graphValue {g : RoutingGraph} (h : (graphValue g).Fits) :
  graph (graphValue g) = some g.bare
  := by
  simp only [graphValue, Value.fits_object_iff, List.forall_mem_cons, Value.fits_ofList_iff] at h
  obtain ⟨-, hnodes, -⟩ := h
  have hswitchTable := table_ofList fun s (_ : s ∈ g.switches.toList) => switch_switchValue s
  have hnodeTable := table_ofList fun n hn => node_nodeValue (hnodes n hn)
  simp [graph, graphValue, hswitchTable, hnodeTable, RoutingGraph.bare]

/-! ### Block graphs -/

/-- A mode is read back. -/
theorem mode_modeValue {m : BlockGraph.Mode} (h : (modeValue m).Fits) :
  mode (modeValue m) = some m
  := by
  simp only [modeValue, Value.fits_object_iff, List.forall_mem_cons] at h
  obtain ⟨-, hchildren, hinterconnects, -⟩ := h
  simp [mode, modeValue, list_numbers hchildren, list_numbers hinterconnects]

/-- A block is read back. -/
theorem block_blockValue {b : BlockGraph.Block} (h : (blockValue b).Fits) :
  block (blockValue b) = some b
  := by
  simp only [blockValue, Value.fits_object_iff, List.forall_mem_cons, Value.fits_number_iff,
    Value.fits_ofOption_iff, Value.fits_ofList_iff] at h
  obtain ⟨-, -, hparent, hdepth, hmodes, hpins, -⟩ := h
  have hpair := nullable_ofOption (fun p hp => pair_numberPair (hparent p hp)) rfl
  have hlist := list_ofList fun m hm => mode_modeValue (hmodes m hm)
  simp [block, blockValue, hpair, hdepth, hlist, list_numbers hpins]

/-- A pin is read back. -/
theorem pin_pinValue {p : BlockGraph.Pin} (h : (pinValue p).Fits) :
  pin (pinValue p) = some p
  := by
  simp only [pinValue, Value.fits_object_iff, List.forall_mem_cons, Value.fits_number_iff] at h
  obtain ⟨hblock, -, hbit, -, hboundary, hinputs, houtputs, -⟩ := h
  have hkind : name portNames (nameIn portNames p.kind) = some p.kind := by
    apply name_nameIn (by decide)
    cases p.kind <;> decide
  simp [pin, pinValue, hblock, hbit, hkind, nullable_number hboundary, list_numbers hinputs,
    list_numbers houtputs]

/-- An edge of a block graph is read back. -/
theorem blockEdge_blockEdgeValue {e : BlockGraph.Edge} (h : (blockEdgeValue e).Fits) :
  blockEdge (blockEdgeValue e) = some e
  := by
  simp only [blockEdgeValue, Value.fits_object_iff, List.forall_mem_cons,
    Value.fits_number_iff] at h
  obtain ⟨hsource, htarget, hinterconnect, -⟩ := h
  simp [blockEdge, blockEdgeValue, hsource, htarget, hinterconnect]

/-- An interconnect is read back. -/
theorem interconnect_interconnectValue {i : BlockGraph.Interconnect}
    (h : (interconnectValue i).Fits) :
  interconnect (interconnectValue i) = some i
  := by
  simp only [interconnectValue, Value.fits_object_iff, List.forall_mem_cons,
    Value.fits_number_iff] at h
  obtain ⟨-, -, howner, hmode, hedges, -⟩ := h
  have hkind : name interconnectNames (nameIn interconnectNames i.kind) = some i.kind := by
    apply name_nameIn (by decide)
    cases i.kind <;> decide
  simp [interconnect, interconnectValue, hkind, howner, hmode, list_numbers hedges]

/-- A block graph is read back. -/
theorem blockGraph_blockGraphValue {b : BlockGraph} (h : (blockGraphValue b).Fits) :
  blockGraph (blockGraphValue b) = some b
  := by
  simp only [blockGraphValue, Value.fits_object_iff, List.forall_mem_cons,
    Value.fits_ofList_iff] at h
  obtain ⟨-, hblocks, hpins, hedges, hinterconnects, -⟩ := h
  have hblockTable := table_ofList fun x hx => block_blockValue (hblocks x hx)
  have hpinTable := table_ofList fun x hx => pin_pinValue (hpins x hx)
  have hedgeTable := table_ofList fun x hx => blockEdge_blockEdgeValue (hedges x hx)
  have hinterconnectTable := table_ofList fun x hx =>
    interconnect_interconnectValue (hinterconnects x hx)
  simp [blockGraph, blockGraphValue, hblockTable, hpinTable, hedgeTable, hinterconnectTable]

/-! ### Clusters and nets -/

/-- A cluster is read back without what is derived. -/
theorem cluster_clusterValue {c : Cluster} (h : (clusterValue c).Fits) :
  cluster (clusterValue c) = some c.bare
  := by
  simp only [clusterValue, Value.fits_object_iff, List.forall_mem_cons, Value.fits_number_iff,
    Value.fits_ofList_iff] at h
  obtain ⟨-, hblockGraph, hx, hy, hmodes, hpinNets, hrouteThroughs, -⟩ := h
  have hlist := list_ofList fun p hp => pair_numberPair (hrouteThroughs p hp)
  simp [cluster, clusterValue, hblockGraph, hx, hy, table_optionalNumbers hmodes,
    table_optionalNumbers hpinNets, hlist, Cluster.bare]

/-- A net is read back. -/
theorem net_netValue {n : Net} (h : (netValue n).Fits) : net (netValue n) = some n := by
  simp only [netValue, Value.fits_object_iff, List.forall_mem_cons, Value.fits_number_iff] at h
  obtain ⟨-, -, hlogical, htrace, -⟩ := h
  simp [net, netValue, hlogical, list_numbers htrace]

/-- A logical net is read back. -/
theorem logicalNet_logicalNetValue (n : LogicalNet) :
  logicalNet (logicalNetValue n) = some n
  := by
  simp [logicalNet, logicalNetValue]

/-- The nets are read back. -/
theorem nets_netsValue {t : NetTable} (h : (netsValue t).Fits) : nets (netsValue t) = some t := by
  simp only [netsValue, Value.fits_object_iff, List.forall_mem_cons, Value.fits_ofList_iff] at h
  obtain ⟨hnets, -, -⟩ := h
  have hnetTable := table_ofList fun n hn => net_netValue (hnets n hn)
  have hlogicalTable :=
    table_ofList fun n (_ : n ∈ t.logicals.toList) => logicalNet_logicalNetValue n
  simp [nets, netsValue, hnetTable, hlogicalTable]

/-! ### Fabrics -/

/-- A fabric is read back without what is derived. -/
theorem fabric_fabricValue {f : Fabric} (h : (fabricValue f).Fits) :
  fabric (fabricValue f) = some f.bare
  := by
  simp only [fabricValue, Value.fits_object_iff, List.forall_mem_cons,
    Value.fits_ofList_iff] at h
  obtain ⟨hgrid, hgraph, hblockGraphs, hclusters, hnets, -⟩ := h
  have hblockGraphTable := table_ofList fun b hb =>
    blockGraph_blockGraphValue (hblockGraphs b hb)
  have hclusterTable := table_ofList fun c hc =>
    cluster_clusterValue (hclusters c hc)
  simp [fabric, fabricValue, grid_gridValue hgrid, graph_graphValue hgraph, hblockGraphTable,
    hclusterTable, nets_netsValue hnets, Fabric.bare]

/-- What is written for a graph stands for itself. -/
theorem plain_graphValue (g : RoutingGraph) : Plain (graphValue g) := by
  simp [graphValue, switchValue, nodeValue, edgeValue, kindValue, directionValue, sideValue]

/-- What is written for a block graph stands for itself. -/
theorem plain_blockGraphValue (b : BlockGraph) : Plain (blockGraphValue b) := by
  simp [blockGraphValue, blockValue, modeValue, pinValue, blockEdgeValue, interconnectValue,
    numbers, numberPair]

/-- What is written for a cluster stands for itself. -/
theorem plain_clusterValue (c : Cluster) : Plain (clusterValue c) := by
  simp [clusterValue, optionalNumbers, numberPair]

/-- What is written for the nets stands for itself. -/
theorem plain_netsValue (t : NetTable) : Plain (netsValue t) := by
  simp [netsValue, netValue, logicalNetValue, numbers]

/-- What is written for a fabric stands for itself. -/
theorem plain_fabricValue (f : Fabric) : Plain (fabricValue f) := by
  simp [fabricValue, gridValue, plain_graphValue, plain_blockGraphValue, plain_clusterValue,
    plain_netsValue]

/-- A fabric whose numbers fit machine words is read back from its text without what is derived. -/
theorem read_write {f : Fabric} (h : (fabricValue f).Fits) : read (write f) = some f.bare := by
  rw [read, write, parse_compact (plain_fabricValue f), Option.bind_eq_bind, Option.bind_some,
    fabric_fabricValue h]

/-! ### Files -/

section Files

open Files

variable {f : Fabric} {folder : Folder} {path : String} {place : Place}

/-- The content of a file that a fabric is written to holds the fabric without what is derived. -/
theorem ofContent_content (form : Form) (h : (fabricValue f).Fits) :
  ofContent form (form.content (write f)) = .ok f.bare
  := by
  rw [ofContent, Form.text?_content, Option.bind_some, read_write h]

/-- A fabric is saved at every path that may be written. -/
theorem run_save (form : Form) (h : folder.target path = .ok place) :
  (save Folder.disk form path f).run folder
    = (.ok (), folder.putFile place (form.content (write f)))
  := by
  rw [save, StateT.run_bind, Folder.run_write h]
  rfl

/-- A fabric whose numbers fit machine words can be saved in either form at every path that may be
written, and from there the same fabric is loaded, without what is derived. -/
theorem load_of_save (form : Form) (hfits : (fabricValue f).Fits)
    (htarget : folder.target path = .ok place) :
  ∃ folder', (save Folder.disk form path f).run folder = (.ok (), folder')
    ∧ (load Folder.disk form path).run folder' = (.ok f.bare, folder')
  := by
  use folder.putFile place (form.content (write f)), run_save form htarget
  rw [load, StateT.run_bind, Folder.run_read, Folder.read_putFile htarget,
    ← ofContent_content form hfits]
  rfl

/-- A fabric of a single node, with names of all kinds of characters and with something derived. -/
def namedFabric : Fabric where
  grid := { width := 3, height := 1 }
  graph := {
    switches := #[{ name := "a\"b\\c\n\u0001", buffered := true }]
    nodes := #[{
      kind := .channelX, low := ⟨1, 0⟩, high := ⟨2, 0⟩, ptc := 7, direction := some .decreasing,
      edges := [{ sink := 0, switch := 18446744073709551615 }], net := some 5 }]
    lookup := [0] }
  clusters := #[{
    name := "é€😀", blockGraph := 0, place := ⟨1, 1⟩, modes := #[none, some 2],
    pinNets := #[some 0] }]

/-- The fabric with names of all kinds of characters is saved and loaded in compressed form. -/
theorem load_of_save_namedFabric :
  (fabricValue namedFabric).Fits ∧ Folder.empty.target "dump" = .ok ["dump"] ∧
    ∃ folder',
      (save Folder.disk .compressed "dump" namedFabric).run Folder.empty = (.ok (), folder')
      ∧ (load Folder.disk .compressed "dump").run folder' = (.ok namedFabric.bare, folder')
  := by
  have hfits : (fabricValue namedFabric).Fits := by
    simp [fabricValue, namedFabric, gridValue, graphValue, switchValue, nodeValue, edgeValue,
      kindValue, directionValue, nameIn, clusterValue, optionalNumbers, netsValue, wordLimit]
  have htarget : Folder.empty.target "dump" = .ok ["dump"] := by decide +kernel
  exact ⟨hfits, htarget, load_of_save .compressed hfits htarget⟩

end Files

end RoutingFabric.Snapshot
