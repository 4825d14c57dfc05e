import RoutingFabric.Outcome

/-!
# Multiplexer circuits

A multiplexer circuit is a topology, how its inputs are arranged in stages, together with a
technology, how its switches are driven.
-/

namespace RoutingFabric.Mux

/-- Arrangement of the inputs of a multiplexer in stages. -/
inductive Topology where
  /-- one stage that holds every input -/
  | oneLevel
  /-- stages of two inputs each -/
  | tree
  /-- a fixed number of stages of equally many inputs each -/
  | multiLevel (levels : Nat)
  deriving DecidableEq

/-- The name of a topology. -/
def Topology.name : Topology → String
  | .oneLevel => "OneLevel"
  | .tree => "Tree"
  | .multiLevel levels => "MultiLevel(" ++ Text.decimal levels ++ ")"

/-- Kind of switches a multiplexer is built of. -/
inductive Technology where
  /-- transmission gates driven by select lines -/
  | passTransistor
  /-- two-terminal resistive switches programmed by pulses on a row and a column -/
  | resistive
  deriving DecidableEq

/-- The name of a technology. -/
def Technology.name : Technology → String
  | .passTransistor => "PassTransistorCmos"
  | .resistive => "ResistiveTwoTerminal"

/-- A multiplexer circuit: a tree of pass transistors unless chosen otherwise. -/
structure Circuit where
  topology : Topology := .tree
  technology : Technology := .passTransistor
  deriving DecidableEq

end RoutingFabric.Mux
