import RoutingFabric.Command.Log
import RoutingFabric.Outcome

/-!
# Responses

What a command prints, and the code it ends with. A problem is printed as an error; a fault ends
the command with a code of its own.
-/

namespace RoutingFabric.Command

/-- What a command prints, and its code. -/
structure Response where
  code : Nat := 0
  out : String := ""
  err : String := ""
  deriving DecidableEq

namespace Response

/-- The code of a command that succeeds. -/
def succeeded : Nat := 0

/-- The code of a command that is stopped by a problem. -/
def failed : Nat := 1

/-- The code of a command that is used in a wrong way. -/
def misused : Nat := 2

/-- The code of a command that is stopped by a fault. -/
def faulted : Nat := 101

/-- The line of an error. -/
def errorLine (message : String) : String := "Error: " ++ message ++ "\n"

/-- What a fault is called. -/
def faultName : Fault → String
  | .outOfRange => "index out of range"
  | .overflow => "arithmetic overflow"
  | .refused => "argument not accepted"
  | .tooLarge => "table too large"
  | .endless => "endless walk"

/-- The response of a command that printed a text and reported events before it was stopped, if
it was. -/
def ofStop (log : Option String) (out : String) (events : List Event) : Option Stop → Response
  | none => { out, err := Log.text log events }
  | some (.problem p) =>
    { code := failed, out, err := Log.text log events ++ errorLine p.message }
  | some (.fault f) =>
    { code := faulted, out, err := Log.text log events ++ "Fault: " ++ faultName f ++ "\n" }

end Response

end RoutingFabric.Command
