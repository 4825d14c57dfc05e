import RoutingFabric.Options.Basic
import RoutingFabric.Text.Word
import RoutingFabric.Yaml.Node

/-!
# Reading options

Options are read from a YAML text, which is a mapping. Options that are missing take their
defaults, and keys that are not known are skipped. A text without any document sets no options.
-/

namespace RoutingFabric.Options

open Yaml

/-- A reader of nodes. -/
abbrev Read (α : Type) := Node → Option α

namespace Read

/-! ### Scalars -/

/-- The prefixes of numbers to other bases than ten. -/
def bases : List (Char × Nat) := [('x', 16), ('o', 8), ('b', 2)]

/-- The number that digits to a base stand for. -/
def digitsOf? (base : Nat) (digits : List Char) : Option Nat := do
  if digits.isEmpty then none
  else
    let values ← digits.mapM Json.hexValue?
    if values.all (· < base) then
      let n := values.foldl (fun n d => base * n + d) 0
      if n < wordLimit then some n else none
    else none

/-- The number that a plain scalar stands for, if it stands for one. A decimal number has no
leading zeros, and every number may have a plus sign. -/
def number? (text : List Char) : Option Nat :=
  let digits := match text with
    | '+' :: rest => rest
    | _ => text
  match digits with
  | '0' :: base :: rest =>
    match bases.lookup base with
    | some base => digitsOf? base rest
    | none => none
  | _ => digitsOf? 10 digits

/-- The truth values. -/
def truthValues : List (String × Bool) :=
  [("true", true), ("True", true), ("TRUE", true),
   ("false", false), ("False", false), ("FALSE", false)]

/-- Whether a plain scalar says that there is no value. -/
def isNull (text : String) : Bool := ["null", "Null", "NULL", "~"].contains text

/-- The tag of a standard type. -/
def standardTag (name : String) : String := "tag:yaml.org,2002:" ++ name

/-- Whether a scalar may stand for a value of a standard type: a plain scalar, or a literal one
that is tagged as such. -/
def isBare (type : String) (style : Style) (tag : Option String) : Bool :=
  style = .plain || (style = .literal && tag = some (standardTag type))

/-- A number. -/
def number : Read Nat
  | .scalar style tag text => if isBare "int" style tag then number? text.toList else none
  | _ => none

/-- A truth value. -/
def bool : Read Bool
  | .scalar style tag text => if isBare "bool" style tag then truthValues.lookup text else none
  | _ => none

/-- A value that there may not be. -/
def optional {α : Type} (read : Read α) : Read (Option α)
  | .scalar .plain none text =>
    if text.isEmpty || isNull text then some none
    else (read (.scalar .plain none text)).map some
  | .scalar .plain (some tag) text =>
    if tag = standardTag "null" then if isNull text then some none else none
    else (read (.scalar .plain (some tag) text)).map some
  | node => (read node).map some

/-! ### Choices -/

/-- The name of a choice and what is written after its tag. A choice is a name, or a tag of that
name in front of a scalar. -/
def choice? : Node → Option (String × Option (Style × String))
  | .scalar style tag text =>
    match tag.map String.toList with
    | some ('!' :: name) => some (String.ofList name, some (style, text))
    | _ => some (text, none)
  | _ => none

/-- Whether nothing is written after a tag. -/
def isNothing (style : Style) (text : String) : Bool :=
  style = .plain && (text.isEmpty || isNull text)

/-- The topologies that are a name. -/
def topologies : List (String × Mux.Topology) := [("one_level", .oneLevel), ("tree", .tree)]

/-- The technologies. -/
def technologies : List (String × Mux.Technology) :=
  [("pass_transistor_cmos", .passTransistor), ("resistive_two_terminal", .resistive)]

/-- One of a number of names. -/
def named {α : Type} (names : List (String × α)) : Read α := fun node => do
  match ← choice? node with
  | (name, none) => names.lookup name
  | (name, some (style, text)) => if isNothing style text then names.lookup name else none

/-- A topology. The number of levels is written after the tag. -/
def topology : Read Mux.Topology := fun node => do
  match ← choice? node with
  | ("multi_level", some (style, text)) =>
    if style = .plain then (number? text.toList).map .multiLevel else none
  | _ => named topologies node

/-! ### Mappings -/

/-- The keys of pairs, which have to be scalars. -/
def keys? (pairs : List (Node × Node)) : Option (List (String × Node)) :=
  pairs.mapM fun (key, value) =>
    match key with
    | .scalar _ _ text => some (text, value)
    | _ => none

/-- The members of a mapping. -/
def members? : Node → Option (List (String × Node))
  | .mapping _ pairs => keys? pairs
  | .scalar .plain _ "" => some []
  | _ => none

/-- The member of a key, which may not come twice. -/
def member {α : Type} (members : List (String × Node)) (key : String) (read : Read α) :
    Option (Option α) :=
  match members.filter (·.1 == key) with
  | [] => some none
  | [(_, node)] => (read node).map some
  | _ => none

/-- A multiplexer circuit, of which both parts have to be given. -/
def circuit : Read Mux.Circuit := fun node => do
  let members ← members? node
  let topology ← member members "topology" topology
  let technology ← member members "technology" (named technologies)
  some { topology := ← topology, technology := ← technology }

/-- Options. -/
def options : Read Options := fun node => do
  let members ← members? node
  let defaults : Options := {}
  let switchMux ← member members "sb_mux" circuit
  let connectionMux ← member members "cb_mux" circuit
  let clusterMux ← member members "pb_mux" circuit
  let maxRounds ← member members "max_parasitic_iterations" (optional number)
  let skipDedicated ← member members "skip_global_nets" bool
  let threads ← member members "threads" number
  some {
    switchMux := switchMux.getD defaults.switchMux
    connectionMux := connectionMux.getD defaults.connectionMux
    clusterMux := clusterMux.getD defaults.clusterMux
    maxRounds := maxRounds.getD defaults.maxRounds
    skipDedicated := skipDedicated.getD defaults.skipDedicated
    threads := threads.getD defaults.threads }

end Read

/-- The options that a text sets. -/
def ofYaml? (text : String) : Option Options := do
  match ← Node.ofText? text with
  | some node => Read.options node
  | none => some {}

end RoutingFabric.Options
