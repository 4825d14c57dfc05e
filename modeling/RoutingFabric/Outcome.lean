import RoutingFabric.Text.Quoted
import RoutingFabric.Text.Word

/-!
# Outcomes

An operation on a routing fabric either succeeds, is stopped by a problem of the data it
was given, or is stopped by a fault of its caller. A problem carries the message shown to
the user. A fault carries none: the caller handed in an id that points nowhere, or a count
that leaves the machine word.

Counts, coordinates and ids are natural numbers that stand for machine words. Where a number that
the data holds is added to, the sum may leave the word, and is checked. What an operation counts by
itself is not checked here: the runs of a fabric whose counts are kept in machine words, and checked
at each step, are in `RoutingFabric.InWords`.
-/

namespace RoutingFabric

/-- The largest number of bytes a table may take. -/
def tableLimit : Nat := (1 <<< 63) - 1

/-- Node of the routing graph. -/
abbrev NodeId := Nat

/-- Switch type of the routing graph. -/
abbrev SwitchId := Nat

/-- Net of the fabric, as left by clustering. -/
abbrev NetId := Nat

/-- Net of the logical netlist, from before clustering. -/
abbrev LogicalId := Nat

/-- Block of a block graph. -/
abbrev BlockId := Nat

/-- Pin of a block graph, and the position of that pin in every cluster of the type. -/
abbrev PinId := Nat

/-- Edge of a block graph. -/
abbrev EdgeId := Nat

/-- Interconnect of a block graph. -/
abbrev InterconnectId := Nat

/-! ### Faults -/

/-- What a caller did wrong. -/
inductive Fault where
  /-- an id or an index points past the end of its table -/
  | outOfRange
  /-- a count leaves the machine word -/
  | overflow
  /-- an operation is applied to an argument it does not take -/
  | refused
  /-- a table does not fit the memory -/
  | tooLarge
  /-- a walk never ends -/
  | endless
  deriving DecidableEq

/-! ### Problems -/

/-- Index of a cluster that may point nowhere. -/
inductive ClusterIndex where
  | blockGraph
  | routeThroughPin
  | net
  deriving DecidableEq

/-- The name of a cluster index in messages. -/
def ClusterIndex.name : ClusterIndex → String
  | .blockGraph => "pb-graph"
  | .routeThroughPin => "route-through pin"
  | .net => "net"

/-- Table of a block graph. -/
inductive BlockTable where
  | edge
  | pin
  | block
  | interconnect
  | mode
  deriving DecidableEq

/-- The name of an element of a table in messages. -/
def BlockTable.name : BlockTable → String
  | .edge => "edge"
  | .pin => "pin"
  | .block => "node"
  | .interconnect => "interconnect"
  | .mode => "mode"

/-- Why a file cannot be read or written. -/
inductive FileProblem where
  | notFound
  | denied
  | noDevice
  | notDirectory
  | isDirectory
  | nameTooLong
  /-- the name holds a character that no name may hold -/
  | badName
  /-- the content is no text -/
  | notText
  /-- any other problem the operating system reports -/
  | other (code : Nat) (text : String)
  deriving DecidableEq

/-- The number the operating system gives a file problem. Some problems are found before the
operating system is asked. -/
def FileProblem.code : FileProblem → Option Nat
  | .notFound => some 2
  | .denied => some 13
  | .noDevice => some 19
  | .notDirectory => some 20
  | .isDirectory => some 21
  | .nameTooLong => some 36
  | .badName => none
  | .notText => none
  | .other code _ => some code

/-- The name of the kind of a file problem. -/
def FileProblem.kind : FileProblem → String
  | .notFound => "NotFound"
  | .denied => "PermissionDenied"
  | .noDevice => "Uncategorized"
  | .notDirectory => "NotADirectory"
  | .isDirectory => "IsADirectory"
  | .nameTooLong => "InvalidFilename"
  | .badName => "InvalidInput"
  | .notText => "InvalidData"
  | .other _ _ => "Uncategorized"

/-- What is wrong, in words. -/
def FileProblem.text : FileProblem → String
  | .notFound => "No such file or directory"
  | .denied => "Permission denied"
  | .noDevice => "No such device"
  | .notDirectory => "Not a directory"
  | .isDirectory => "Is a directory"
  | .nameTooLong => "File name too long"
  | .badName => "file name contained an unexpected NUL byte"
  | .notText => "stream did not contain valid UTF-8"
  | .other _ text => text

/-- The message of a file problem. -/
def FileProblem.message (p : FileProblem) : String :=
  match p.code with
  | some code => p.text ++ " (os error " ++ Text.decimal code ++ ")"
  | none => p.text

/-- A file problem with its code, kind and text spelled out. -/
def FileProblem.detail (p : FileProblem) : String :=
  match p.code with
  | some code =>
    "Os \x7b code: " ++ Text.decimal code ++ ", kind: " ++ p.kind ++ ", message: \"" ++ p.text
      ++ "\" \x7d"
  | none => "Error \x7b kind: " ++ p.kind ++ ", message: \"" ++ p.text ++ "\" \x7d"

/-- Why a snapshot or an options file cannot be used. -/
inductive LoadProblem where
  /-- the file cannot be opened -/
  | file (problem : FileProblem)
  /-- the file cannot be mapped into memory -/
  | mapping (problem : FileProblem)
  /-- the text is not a snapshot -/
  | badSnapshot
  /-- the text holds no options -/
  | badOptions
  deriving DecidableEq

/-- The message of a load problem. Where a text is malformed, what is wrong with it is
left out. -/
def LoadProblem.message : LoadProblem → String
  | .file p => "couldn't open file: " ++ p.detail
  | .mapping p => "couldn't open file: mmap failed: " ++ p.detail
  | .badSnapshot => "couldn't (de)serialize fabric: ..."
  | .badOptions => "couldn't (de)serialize fabric: invalid options: ..."

/-- What is wrong with the data of a fabric, its options or its files. Nodes of the routing
graph, pins, nets, clusters and blocks are given by their rendered names, so that a problem
outlives the fabric it was found in. -/
inductive Problem where
  | fanInMismatch (node : String) (declared found : Nat)
  | inconsistentDriverSwitch (node : String) (first second : SwitchId)
  | danglingEdge (node : String) (sink : NodeId)
  | bidirectionalWire (node : String)
  | driverNotFound (net driver node : String)
  | branchNotOnTree (net node : String)
  | netConflict (node existing claimant : String)
  | multipleDrivers (net node : String)
  | emptyTrace (net : String)
  | unknownTraceNode (net : String) (node : NodeId)
  | unboundClusterPin (cluster blockType pin : String)
  | missingLocalDriver (cluster pin net : String) (edges : Nat)
  | localDriverCycle (cluster pin : String)
  | mixedInterconnects (blockType pin first second : String)
  | invalidClusterIndex (cluster : String) (what : ClusterIndex) (index : Nat)
  | danglingReference (blockType : String) (what : BlockTable) (index : Nat)
      (target : BlockTable) (targetIndex : Nat)
  | invalidMode (cluster block : String) (mode : Nat)
  | propagationDiverged (iterations : Nat) (pending : List String)
  | pathOutOfRange (path size : Nat)
  | tooFewInputs (topology : String) (size : Nat)
  | noLevels (size : Nat)
  | confBitSpanMismatch (block : String) (expected found : Nat)
  | load (problem : LoadProblem)
  | exporting (problem : FileProblem)
  deriving DecidableEq

/-- The message of a problem. -/
def Problem.message : Problem → String
  | .fanInMismatch node declared found =>
    node ++ " declares fan-in " ++ Text.decimal declared ++ ", but " ++ Text.decimal found
      ++ " edges drive it"
  | .inconsistentDriverSwitch node first second =>
    node ++ " is driven through switch types " ++ Text.decimal first ++ " and "
      ++ Text.decimal second ++ "; only uni-directional routing architectures are supported"
  | .danglingEdge node sink =>
    node ++ " has an edge to non-existent node " ++ Text.decimal sink
  | .bidirectionalWire node => "bi-directional wire " ++ node ++ " is not supported"
  | .driverNotFound net driver node =>
    "net " ++ net ++ ": " ++ driver ++ " is not a driver of " ++ node
  | .branchNotOnTree net node =>
    "net " ++ net ++ ": branch restarts at " ++ node ++ ", which is not on the routing tree"
  | .netConflict node existing claimant =>
    node ++ " is claimed by net " ++ existing ++ " and by net " ++ claimant
  | .multipleDrivers net node =>
    "net " ++ net ++ ": " ++ node ++ " is entered from two different drivers"
  | .emptyTrace net => "net " ++ net ++ ": empty routing trace"
  | .unknownTraceNode net node =>
    "net " ++ net ++ ": routing trace refers to non-existent node " ++ Text.decimal node
  | .unboundClusterPin cluster blockType pin =>
    "cluster " ++ cluster ++ ": pin " ++ pin ++ " of " ++ blockType
      ++ " has no pin-map entry in the routing graph"
  | .missingLocalDriver cluster pin net edges =>
    "cluster " ++ cluster ++ ": pin " ++ pin ++ " carries net " ++ net ++ " but none of its "
      ++ Text.decimal edges ++ " active input edges resolves to it"
  | .localDriverCycle cluster pin =>
    "cluster " ++ cluster ++ ": default drivers form a cycle through pin " ++ pin
  | .mixedInterconnects blockType pin first second =>
    "pb-graph " ++ blockType ++ ": pin " ++ pin ++ " is reached by interconnects " ++ first
      ++ " and " ++ second ++ " of one mode"
  | .invalidClusterIndex cluster what index =>
    "cluster " ++ cluster ++ ": " ++ what.name ++ " " ++ Text.decimal index ++ " does not exist"
  | .danglingReference blockType what index target targetIndex =>
    "pb-graph " ++ blockType ++ ": " ++ what.name ++ " " ++ Text.decimal index
      ++ " refers to non-existent " ++ target.name ++ " " ++ Text.decimal targetIndex
  | .invalidMode cluster block mode =>
    "cluster " ++ cluster ++ ": mode " ++ Text.decimal mode ++ " does not exist for " ++ block
  | .propagationDiverged iterations pending =>
    "net propagation did not settle after " ++ Text.decimal iterations
      ++ " iterations (combinational cycle?); still changing: " ++ Text.quotedList pending
  | .pathOutOfRange path size =>
    "path id " ++ Text.decimal path ++ " is out of range for a " ++ Text.decimal size
      ++ "-input multiplexer"
  | .tooFewInputs topology size =>
    topology ++ " multiplexer cannot be built with " ++ Text.decimal size ++ " inputs"
  | .noLevels size =>
    "0-level multiplexer cannot be built with " ++ Text.decimal size ++ " inputs"
  | .confBitSpanMismatch block expected found =>
    block ++ ": encoded " ++ Text.decimal found
      ++ " configuration bits, but the recorded span holds " ++ Text.decimal expected
  | .load p => "couldn't load fabric: " ++ p.message
  | .exporting p => "couldn't export results: " ++ p.message

/-! ### Outcomes -/

/-- What stops an operation. -/
inductive Stop where
  | problem (p : Problem)
  | fault (f : Fault)
  deriving DecidableEq

/-- The value of an operation, or what stopped it. -/
abbrev Outcome (α : Type) := Except Stop α

/-- The operation is stopped by a problem. -/
def fail {α : Type} (p : Problem) : Outcome α := .error (.problem p)

/-- The operation is stopped by a fault. -/
def fault {α : Type} (f : Fault) : Outcome α := .error (.fault f)

/-- The entry of a table at an index, a fault past its end. -/
def entry {α : Type} (xs : Array α) (i : Nat) : Outcome α :=
  match xs[i]? with
  | some x => .ok x
  | none => fault .outOfRange

/-- The table with the entry at an index changed, a fault past its end. -/
def alter {α : Type} (xs : Array α) (i : Nat) (f : α → α) : Outcome (Array α) :=
  if i < xs.size then .ok (xs.modify i f) else fault .outOfRange

/-- A number that has to fit a machine word. -/
def word (n : Nat) : Outcome Nat :=
  if n < wordLimit then .ok n else fault .overflow

/-- The result does not stop at a fault. -/
def Faultless {α : Type} (r : Outcome α) : Prop := ∀ f, r ≠ .error (.fault f)

/-- An index below the size of a table has an entry. -/
theorem entry_of_lt {α : Type} {xs : Array α} {i : Nat} (h : i < xs.size) :
  entry xs i = .ok xs[i]
  := by
  simp [entry, h]

/-- An entry is found exactly where the table has one. -/
theorem entry_eq_ok_iff {α : Type} {xs : Array α} {i : Nat} {x : α} :
  entry xs i = .ok x ↔ xs[i]? = some x
  := by
  unfold entry fault
  split <;> simp_all

/-- An entry below the size of a table can be changed. -/
theorem alter_of_lt {α : Type} {xs : Array α} {i : Nat} (f : α → α) (h : i < xs.size) :
  alter xs i f = .ok (xs.modify i f)
  := by
  simp [alter, h]

/-- A number below the limit fits a machine word. -/
theorem word_of_lt {n : Nat} (h : n < wordLimit) : word n = .ok n := by
  simp [word, h]

end RoutingFabric
