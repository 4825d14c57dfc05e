import RoutingFabric.Export.Listing
import RoutingFabric.Fabric.Basic
import RoutingFabric.Json.Value

/-!
# Pin reports

What a run found about the pins of a cluster, by the names of the pins: the driver a pin selects,
the nets it carries, and whether it is open.
-/

namespace RoutingFabric.Export

/-- What is found about a pin. -/
structure PinReport where
  driver : Option String
  path : Option Nat
  net : Option String
  logical : Option String
  isOpen : Bool
  deriving DecidableEq

/-- A pin report in JSON. -/
def PinReport.value (a : PinReport) : Json.Value :=
  .object [
    ("driver", .ofOption .text a.driver),
    ("path_id", .ofOption .number a.path),
    ("global_net", .ofOption .text a.net),
    ("logical_net", .ofOption .text a.logical),
    ("open", .bool a.isOpen)]

variable (t : NetTable) (b : BlockGraph)

/-- The report of a pin in a state. -/
def reportOf (s : Cluster.PinState) : Outcome PinReport := do
  let driver ← match s.selected with
    | some d => do pure (some (← b.pinName d.pin))
    | none => pure none
  return {
    driver
    path := s.selected.map (·.path)
    net := s.net.map t.nameOf
    logical := s.logical.map t.logicalName
    isOpen := s.isOpen }

/-- The names and reports of the pins of a cluster, in order. -/
def pinReports (c : Cluster) : Outcome (List (String × PinReport)) :=
  c.locals.pins.toList.zipIdx.mapM fun (s, id) => do
    let report ← reportOf t b s
    return (← b.pinName id, report)

/-- The reports of the pins of a cluster by name. -/
def pinListing (c : Cluster) : Outcome (Listing PinReport) := do
  return .ofList (← pinReports t b c)

/-- The reports of the pins of a cluster in JSON. -/
def clusterValue (c : Cluster) : Outcome Json.Value := do
  let pins ← pinListing t b c
  return .object (pins.map fun (name, a) => (name, a.value))

end RoutingFabric.Export
