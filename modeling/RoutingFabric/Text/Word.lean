import RoutingFabric.Text.Decimal

/-!
# Machine words

Counts, coordinates and ids stand for words of 64 bits. In a text a word may be written with a
plus sign and with leading zeros.
-/

namespace RoutingFabric

/-- The number of values of a machine word. -/
def wordLimit : Nat := 1 <<< 64

namespace Text

/-- The number that a text stands for, if it consists of digits, perhaps after a plus sign, and
the number fits a machine word. -/
def word? (s : List Char) : Option Nat :=
  let digits := match s with
    | '+' :: rest => rest
    | _ => s
  if digits.isEmpty || !digits.all isDigit then none
  else
    let n := numberOf digits
    if n < wordLimit then some n else none

end Text

end RoutingFabric
