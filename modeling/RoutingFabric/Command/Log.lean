import RoutingFabric.Event
import RoutingFabric.Text.Blank
import RoutingFabric.Text.Word

/-!
# The log

A user sets the level of the log by a variable of the environment. Without it, only events of
the lowest level are shown. A setting that is no number is reported once, in front of the first
event, and counts as the lowest level.
-/

namespace RoutingFabric.Log

/-- The variable that sets the level. -/
def variableName : String := "RRBA_DBG_LOG_LEVEL"

/-- The level that a setting asks for, if it is a number. Blanks around it do not matter. -/
def level? (setting : String) : Option Nat := Text.word? (Text.trim setting.toList)

/-- The lines of the events that a level shows. -/
def lines (level : Nat) (events : List Event) : List String :=
  (events.filter fun e => e.level ≤ level).map fun e => e.line ++ "\n"

/-- The report of a setting that is no number. -/
def warning (setting : String) : String :=
  "WARNING: ignoring " ++ variableName ++ "=" ++ Text.quoted setting ++ ", expected a number\n"

/-- The text of the log. -/
def text (setting : Option String) (events : List Event) : String :=
  match setting with
  | none => String.join (lines 0 events)
  | some s =>
    match level? s with
    | some level => String.join (lines level events)
    | none => if events.isEmpty then "" else warning s ++ String.join (lines 0 events)

end RoutingFabric.Log
