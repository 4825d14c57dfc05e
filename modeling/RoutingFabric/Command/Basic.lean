import RoutingFabric.Command.Annotate
import RoutingFabric.Command.Arguments
import RoutingFabric.Command.MuxBits
import RoutingFabric.Text.Word

/-!
# Commands

The program has a command that annotates a fabric and one for the bits of a single multiplexer.
Arguments that are not those of a command are a misuse, unless help or the version is asked for.
-/

namespace RoutingFabric

open Command

/-- A command. -/
inductive Command where
  | annotate (a : Annotate)
  | muxBits (c : MuxBits)

namespace Command

/-! ### Arguments -/

/-- A number that an argument stands for. -/
def number (arg : String) : Except Refusal Nat :=
  match Text.word? arg.toList with
  | some n => .ok n
  | none => .error .misuse

/-- A number that an option may have for a value. -/
def number? (a : Arguments) (option : String) : Except Refusal (Option Nat) :=
  match a.value? option with
  | some value => do return some (← number value)
  | none => .ok none

/-- What the command that annotates a fabric takes. -/
def annotateGrammar : Grammar where
  positional := 1
  options := [
    ("raw", .flag), ("config", .single), ("json", .repeated), ("json-prefix", .single),
    ("bits", .repeated), ("bits-prefix", .single), ("threads", .single)]

/-- The command that annotates a fabric. -/
def annotateOf (args : List String) : Except Refusal Command := do
  let a ← Arguments.ofList annotateGrammar args
  let threads ← number? a "threads"
  match a.positional with
  | [fabric] =>
    return .annotate {
      fabric
      form := if a.has "raw" then .raw else .compressed
      options := a.value? "config"
      clusters := ⟨a.valuesOf "json"⟩
      clusterFolder := (a.value? "json-prefix").getD ""
      blocks := ⟨a.valuesOf "bits"⟩
      blockFolder := (a.value? "bits-prefix").getD ""
      threads }
  | _ => .error .misuse

/-- What the command for the bits of a multiplexer takes. -/
def muxBitsGrammar : Grammar where
  positional := 2
  options := [("topology", .single), ("levels", .single), ("resistive", .flag)]

/-- The command for the bits of a multiplexer. It is a tree unless chosen otherwise, and has two
levels where the number of levels is not fixed by its topology. -/
def muxBitsOf (args : List String) : Except Refusal Command := do
  let a ← Arguments.ofList muxBitsGrammar args
  let levels ← number? a "levels"
  match a.positional with
  | [size, path] =>
    return .muxBits {
      size := ← number size
      path := ← number path
      topology := (a.value? "topology").getD "tree"
      levels := levels.getD 2
      resistive := a.has "resistive" }
  | _ => .error .misuse

/-- The names of the commands. -/
def names : List String := ["annotate", "mux-bits", "help"]

/-- The command that arguments stand for. -/
def ofArgs : List String → Except Refusal Command
  | [] => .error .misuse
  | arg :: rest =>
    if arg = "annotate" then annotateOf rest
    else if arg = "mux-bits" then muxBitsOf rest
    else if arg = "help" then
      .error (if rest.all names.contains && rest.length ≤ 1 then .help else .misuse)
    else if arg = "--help" || Arguments.isShortHelp arg then .error .help
    else if arg = "--version" || Arguments.isShortVersion arg then .error .version
    else .error .misuse

/-! ### Running -/

/-- The name and the version of the program. -/
def versionText : String := "rrba 0.0.1\n"

/-- How the program is used. -/
def usage : String :=
  "RRBA - Routing Resource Back-Annotator\n\n"
    ++ "rrba annotate FABRIC [--raw] [--config FILE] [--json NAME]... [--json-prefix FOLDER]\n"
    ++ "    [--bits NAME]... [--bits-prefix FOLDER] [--threads N]\n"
    ++ "rrba mux-bits SIZE PATH [--topology one_level|tree|multi_level] [--levels N]\n"
    ++ "    [--resistive]\n"
    ++ "rrba --help\n"
    ++ "rrba --version\n"

/-- The response to arguments that are not those of a command. -/
def Refusal.response : Refusal → Response
  | .help => { out := usage }
  | .version => { out := versionText }
  | .misuse => { code := Response.misused, err := usage }

variable {m : Type → Type} [Monad m] (disk : Files.Disk m)

/-- A command is carried out. It needs one thread at least. -/
def run (log : Option String) : Command → m Response
  | .muxBits c => return c.response
  | .annotate a =>
    if a.threads = some 0 then
      return { code := Response.misused, err := "Thread count must be positive\n" }
    else a.run disk log

/-- The command that arguments stand for is carried out. -/
def runArgs (log : Option String) (args : List String) : m Response :=
  match ofArgs args with
  | .ok command => command.run disk log
  | .error refusal => return refusal.response

end Command

end RoutingFabric
