import RoutingFabric.Text.Decimal

/-!
# JSON values

A value keeps the members of an object in the order they are written in, and a number that is
not a plain row of digits as it is written.
-/

namespace RoutingFabric.Json

/-- A JSON value. -/
inductive Value where
  | null
  | bool (b : Bool)
  /-- a number that is a plain row of digits -/
  | number (n : Nat)
  /-- any other number -/
  | otherNumber (literal : String)
  | text (s : String)
  /-- a text, or an object with a name, whose escapes stand for no character: it is grammatical,
  but it cannot be read -/
  | broken
  | array (items : List Value)
  | object (members : List (String × Value))

namespace Value

/-- A list of values. -/
def ofList {α : Type} (f : α → Value) (xs : List α) : Value := .array (xs.map f)

/-- A value that may be missing. -/
def ofOption {α : Type} (f : α → Value) : Option α → Value
  | none => .null
  | some x => f x

end Value

end RoutingFabric.Json
