import RoutingFabric.Text.Decimal
import RoutingFabric.Text.Quoted

/-!
# Events

What the phases of a run report on the way, for the log. Each kind of event has a level: an
event is shown when the level the user asked for is at least as high.
-/

namespace RoutingFabric

/-- Something a phase of a run reports. -/
inductive Event where
  | driverIndexBuilt (nodes edges : Nat)
  | prepared (width height nodes clusters nets : Nat)
  | dedicatedNetSkipped (net : String)
  | netsRouted (routed annotated skipped : Nat)
  | driversSelected (cluster : String) (selected openPins : Nat)
  | roundDone (nodes pins : Nat)
  | settled (rounds : Nat)
  | diverged (pending : List String)
  | runDone (clusters nodes rounds : Nat)
  | boxesBuilt (switchBoxes connectionBoxes : Nat)
  | bitstreamAssembled (bits boxes clusters models : Nat)
  deriving DecidableEq

namespace Event

/-- The level of an event. -/
def level : Event → Nat
  | .diverged .. => 0
  | .driverIndexBuilt .. | .prepared .. | .netsRouted .. | .settled .. | .runDone ..
  | .boxesBuilt .. | .bitstreamAssembled .. => 2
  | .dedicatedNetSkipped .. | .driversSelected .. => 3
  | .roundDone .. => 4

/-- The heading of the events of a level. -/
def heading : Nat → String
  | 0 => "CRITICAL"
  | 1 => "WARNING"
  | 2 => "INFO"
  | 3 => "EXTRA INFO"
  | _ => "EXTRA INFO (2)"

/-- What an event says. -/
def text : Event → String
  | .driverIndexBuilt nodes edges =>
    "Driver index built for " ++ Text.decimal nodes ++ " nodes, " ++ Text.decimal edges ++ " edges"
  | .prepared width height nodes clusters nets =>
    "Fabric " ++ Text.decimal width ++ "x" ++ Text.decimal height ++ " prepared: "
      ++ Text.decimal nodes ++ " rr nodes, " ++ Text.decimal clusters ++ " clusters, " ++ Text.decimal nets ++ " nets"
  | .dedicatedNetSkipped net => "Skipping global net " ++ net
  | .netsRouted routed annotated skipped =>
    "Global pass: " ++ Text.decimal routed ++ " nets routed over " ++ Text.decimal annotated
      ++ " nodes, " ++ Text.decimal skipped ++ " global nets skipped"
  | .driversSelected cluster selected openPins =>
    "Cluster " ++ cluster ++ ": " ++ Text.decimal selected ++ " local drivers selected, "
      ++ Text.decimal openPins ++ " open pins"
  | .roundDone nodes pins =>
    "Parasitic round: " ++ Text.decimal nodes ++ " routing nodes updated, " ++ Text.decimal pins
      ++ " cluster pins changed"
  | .settled rounds => "Parasitic nets settled after " ++ Text.decimal rounds ++ " iterations"
  | .diverged pending =>
    "Net propagation diverged, still changing: " ++ Text.quotedList pending
  | .runDone clusters nodes rounds =>
    "Back-annotation done: " ++ Text.decimal clusters ++ " clusters, " ++ Text.decimal nodes
      ++ " parasitic nodes after " ++ Text.decimal rounds ++ " iterations"
  | .boxesBuilt switchBoxes connectionBoxes =>
    "Built " ++ Text.decimal switchBoxes ++ " switch boxes and " ++ Text.decimal connectionBoxes
      ++ " connection boxes"
  | .bitstreamAssembled bits boxes clusters models =>
    "Bitstream: " ++ Text.decimal bits ++ " routing bits in " ++ Text.decimal boxes ++ " boxes, "
      ++ Text.decimal clusters ++ " clusters, " ++ Text.decimal models ++ " multiplexer models"

/-- The line of an event in the log. -/
def line (e : Event) : String := heading e.level ++ ": " ++ e.text

end Event

end RoutingFabric
