import RoutingFabric.Bitstream
import RoutingFabric.Command.Response
import RoutingFabric.Export.Basic
import RoutingFabric.Export.Pins
import RoutingFabric.Fabric.Run
import RoutingFabric.Options.Reader
import RoutingFabric.Snapshot.File

/-!
# Annotating a fabric

The command reads a fabric, annotates it and assembles its bitstream. It prints what it found,
and writes the pin reports of the selected clusters into one file, and the bits of the
selected blocks into a file each.
-/

namespace RoutingFabric.Command

open Files Export

/-- What the command is asked for. A number of threads takes precedence over the one in the
options. -/
structure Annotate where
  fabric : String
  form : Snapshot.Form
  options : Option String
  clusters : Selection
  clusterFolder : String
  blocks : Selection
  blockFolder : String
  threads : Option Nat
  deriving DecidableEq

namespace Annotate

/-! ### What is printed -/

/-- A line with a title and a number. -/
def line (title : String) (n : Nat) : String := "    " ++ title ++ Text.decimal n ++ "\n"

/-- What is printed about a run. -/
def summary (r : Report) : String :=
  "Back-annotation:\n"
    ++ line "No. of routed nets:                 " r.routing.routed
    ++ line "No. of skipped global nets:         " r.routing.skipped
    ++ line "No. of annotated routing nodes:     " r.routing.annotated
    ++ line "No. of clusters:                    " r.clusters
    ++ line "No. of open cluster pins:           " r.openPins
    ++ line "Parasitic propagation iterations:   " r.rounds
    ++ line "No. of nodes with parasitic nets:   " r.parasiticNodes

/-- What is printed about a bitstream. -/
def tally (s : Bitstream) : String :=
  "Bitstream:\n"
    ++ line "No. of routing boxes:               " s.boxes.length
    ++ line "No. of routing configuration bits:  " s.routingBits.length
    ++ line "No. of cluster configuration bits:  " (s.clusters.foldr (·.bits.length + ·) 0)

/-! ### What is written -/

/-- The name of the file of pin reports. -/
def clusterFile : String := "cluster_annotation.json"

/-- The end of the names of the files of bits. -/
def bitsEnding : String := ".bits"

/-- The pin reports of clusters that are selected. -/
def collect (f : Fabric) : Collected → List Cluster → Outcome Collected
  | e, [] => return e
  | e, c :: rest => do
    if e.selection.selects c.name then
      let b ← f.blockGraphOf c
      collect f (e.offer c.name (← clusterValue f.nets b c)) rest
    else collect f e rest

/-- The file of the pin reports, if any cluster is selected. -/
def clusterFiles (a : Annotate) (f : Fabric) : Outcome (List (String × String)) := do
  let e : Collected := { selection := a.clusters, path := join a.clusterFolder clusterFile }
  return (← collect f e f.clusters.toList).file?.toList

/-- The text of the bits of a block. -/
def bitsText (b : BlockBits) : String := b.bits.text ++ "\n"

/-- The files of the bits of the selected blocks. -/
def blockFiles (a : Annotate) (s : Bitstream) : List (String × String) :=
  let e : Separate := { selection := a.blocks, folder := a.blockFolder, ending := bitsEnding }
  e.filesOf (s.blocks.map fun b => (b.name, bitsText b))

/-- The files to be written, in order. -/
def files (a : Annotate) (f : Fabric) (s : Bitstream) : Outcome (List (String × String)) := do
  return (← a.clusterFiles f) ++ a.blockFiles s

/-! ### What is done -/

/-- The fabric is prepared and annotated. -/
def annotating (o : Options) : Phase Fabric Report := do
  Fabric.prepare
  Fabric.annotate o

/-- The bitstream of the annotated fabric is assembled. -/
def assembling (o : Options) : Phase Fabric Bitstream := do
  let f ← Phase.state
  let d ← Phase.lift (DeviceBoxes.build f.graph f.grid o.threads)
  Phase.report (.boxesBuilt d.switch.size (d.connectionX.size + d.connectionY.size))
  let a ← Phase.lift (Bitstream.assemble f o d)
  Phase.report (.bitstreamAssembled a.total a.bitstream.boxes.length
    a.bitstream.clusters.length a.library.size)
  return a.bitstream

/-- What was done with a fabric: what is to be printed, the events, and the files to be
written. -/
structure Work where
  out : String
  events : List Event
  files : Outcome (List (String × String))

/-- What the command does with a fabric. -/
def work (a : Annotate) (o : Options) (f : Fabric) : Work :=
  let first := (annotating o).run f
  match first.outcome with
  | .error e => { out := "", events := first.events, files := .error e }
  | .ok report =>
    let second := (assembling o).run first.state
    let events := first.events ++ second.events
    match second.outcome with
    | .error e => { out := summary report, events, files := .error e }
    | .ok bitstream =>
      { out := summary report ++ tally bitstream, events, files := a.files second.state bitstream }

/-! ### Files -/

/-- The options that a path leads to. -/
def optionsOf : Except FileProblem Entry → Except LoadProblem Options
  | .error p => .error (.file p)
  | .ok .folder => .error (.file .isDirectory)
  | .ok (.file (.plain text)) =>
    match Options.ofYaml? text with
    | some o => .ok o
    | none => .error .badOptions
  | .ok (.file _) => .error (.file .notText)

variable {m : Type → Type} [Monad m] (disk : Disk m)

/-- The options of the command. -/
def loadOptions (a : Annotate) : m (Except LoadProblem Options) := do
  match a.options with
  | some path => return optionsOf (← disk.read path)
  | none => return .ok {}

/-- What stops the writing of files. -/
def written (files : Outcome (List (String × String))) : m (Option Stop) := do
  match files with
  | .error e => return some e
  | .ok files =>
    match ← disk.writeAll files with
    | .ok () => return none
    | .error p => return some (.problem (.exporting p))

/-- The command is carried out. Options that cannot be read are reported before a fabric that
cannot be read. -/
def run (log : Option String) (a : Annotate) : m Response := do
  let options ← a.loadOptions disk
  let fabric ← Snapshot.load disk a.form a.fabric
  match options, fabric with
  | .error p, _ | .ok _, .error p => return .ofStop log "" [] (some (.problem (.load p)))
  | .ok o, .ok f =>
    let w := a.work { o with threads := a.threads.getD o.threads } f
    return .ofStop log w.out w.events (← written disk w.files)

end Annotate

end RoutingFabric.Command
