import RoutingFabric.Command.Response
import RoutingFabric.Mux.Code

/-!
# The bits of a single multiplexer

The command prints the configuration bits that select an input of a multiplexer. It needs no
fabric.
-/

namespace RoutingFabric.Command

/-- What the command is asked for. -/
structure MuxBits where
  size : Nat
  path : Nat
  topology : String
  levels : Nat
  resistive : Bool
  deriving DecidableEq

namespace MuxBits

/-- The topology asked for. -/
def topology? (c : MuxBits) : Option Mux.Topology :=
  if c.topology = "one_level" then some .oneLevel
  else if c.topology = "tree" then some .tree
  else if c.topology = "multi_level" then some (.multiLevel c.levels)
  else none

/-- The technology asked for. -/
def technology (c : MuxBits) : Mux.Technology :=
  if c.resistive then .resistive else .passTransistor

/-- What is printed about a model and the bits that select an input. -/
def summary (c : MuxBits) (m : Mux.Model) (bits : ConfigBits) : String :=
  Text.decimal c.size ++ "-input multiplexer (" ++ m.circuit.topology.name ++ ", "
    ++ m.circuit.technology.name ++ "):\n"
    ++ "    Levels:         " ++ Text.decimal m.levels ++ "\n"
    ++ "    Reserved bits:  " ++ Text.decimal m.reservedBits ++ "\n"
    ++ "    Path " ++ Text.decimal c.path ++ ":         " ++ bits.text ++ "\n"

/-- The text to be printed for a circuit. -/
def text (c : MuxBits) (circuit : Mux.Circuit) : Outcome String := do
  let m ← Mux.Model.build c.size circuit
  return c.summary m (← m.encode c.path)

/-- The response of the command. -/
def response (c : MuxBits) : Response :=
  match c.topology? with
  | none =>
    { code := Response.failed
      err := Response.errorLine ("Unknown multiplexer topology " ++ c.topology) }
  | some topology =>
    match c.text { topology, technology := c.technology } with
    | .ok out => { out }
    | .error e => .ofStop none "" [] (some e)

end MuxBits

end RoutingFabric.Command
