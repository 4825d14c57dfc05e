import RoutingFabric.Text.Printable

/-!
# Quoted texts

A text is quoted for a message by putting it between double quotes and escaping what would
not show: the quote and the backslash, the usual control characters by a letter, and every
other character that leaves no mark of its own by its code point.
-/

namespace RoutingFabric.Text

/-- A hexadecimal digit. -/
def hexDigit (d : Nat) : Char :=
  if d < 10 then Char.ofNat (48 + d) else Char.ofNat (87 + d)

/-- The hexadecimal digits of a number, without leading zeros, before `rest`. The first
argument bounds their count. -/
def hexDigitsBefore : Nat → Nat → List Char → List Char
  | 0, _, rest => rest
  | more + 1, n, rest =>
    if n < 16 then hexDigit n :: rest
    else hexDigitsBefore more (n / 16) (hexDigit (n % 16) :: rest)

/-- A character as it stands inside quotes. -/
def quotedChar (c : Char) : List Char :=
  if c = '"' then ['\\', '"']
  else if c = '\\' then ['\\', '\\']
  else if c = '\n' then ['\\', 'n']
  else if c = '\r' then ['\\', 'r']
  else if c = '\t' then ['\\', 't']
  else if c.toNat = 0 then ['\\', '0']
  else if isPrintable c then [c]
  else ['\\', 'u', '\x7b'] ++ hexDigitsBefore 8 c.toNat ['\x7d']

/-- A text between quotes. -/
def quoted (s : String) : String :=
  String.ofList ('"' :: s.toList.flatMap quotedChar ++ ['"'])

/-- A list of quoted texts. -/
def quotedList (texts : List String) : String :=
  "[" ++ ", ".intercalate (texts.map quoted) ++ "]"

end RoutingFabric.Text
