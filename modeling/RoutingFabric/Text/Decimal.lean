/-!
# Decimal numbers

Natural numbers written in decimal digits, and read back. Reading adds up the digits from the
left, so that leading zeros make no difference.
-/

namespace RoutingFabric.Text

/-- Whether a character is a decimal digit. -/
def isDigit (c : Char) : Bool := '0' ≤ c && c ≤ '9'

/-- The value of a decimal digit. -/
def digitValue (c : Char) : Nat := c.toNat - '0'.toNat

/-- The number that a list of digits stands for. -/
def numberOf (digits : List Char) : Nat :=
  digits.foldl (fun n c => 10 * n + digitValue c) 0

/-- The decimal digits of a number. -/
def digitsOf (n : Nat) : List Char := Nat.toDigits 10 n

/-- A number in decimal digits. -/
def decimal (n : Nat) : String := String.ofList (digitsOf n)

end RoutingFabric.Text
