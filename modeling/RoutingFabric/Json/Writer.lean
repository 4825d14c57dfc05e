import RoutingFabric.Json.Value
import RoutingFabric.Text.Quoted

/-!
# Writing JSON

A value is written either on one line without any blanks, or over several lines that are
indented by two blanks for each level. Only the quote, the backslash and the control characters
of a text are escaped.
-/

namespace RoutingFabric.Json

/-! ### Texts -/

/-- A character inside a text. -/
def escaped (c : Char) : List Char :=
  if c = '"' then ['\\', '"']
  else if c = '\\' then ['\\', '\\']
  else if c.toNat = 8 then ['\\', 'b']
  else if c.toNat = 12 then ['\\', 'f']
  else if c = '\n' then ['\\', 'n']
  else if c = '\r' then ['\\', 'r']
  else if c = '\t' then ['\\', 't']
  else if c.toNat < 32 then
    ['\\', 'u', '0', '0', Text.hexDigit (c.toNat / 16), Text.hexDigit (c.toNat % 16)]
  else [c]

/-- A text between quotes. -/
def textChars (s : String) : List Char := '"' :: s.toList.flatMap escaped ++ ['"']

/-! ### On one line -/

mutual

/-- A value on one line. -/
def compactChars : Value → List Char
  | .null => ['n', 'u', 'l', 'l']
  | .bool true => ['t', 'r', 'u', 'e']
  | .bool false => ['f', 'a', 'l', 's', 'e']
  | .number n => Text.digitsOf n
  | .otherNumber literal => literal.toList
  | .text s => textChars s
  | .broken => ['n', 'u', 'l', 'l']
  | .array [] => ['[', ']']
  | .array (v :: vs) => '[' :: compactChars v ++ compactItems vs
  | .object [] => ['\x7b', '\x7d']
  | .object (m :: ms) => '\x7b' :: compactMember m ++ compactMembers ms

/-- The items of an array after the first, and its end. -/
def compactItems : List Value → List Char
  | [] => [']']
  | v :: vs => ',' :: compactChars v ++ compactItems vs

/-- A member of an object. -/
def compactMember : String × Value → List Char
  | (name, v) => textChars name ++ ':' :: compactChars v

/-- The members of an object after the first, and its end. -/
def compactMembers : List (String × Value) → List Char
  | [] => ['\x7d']
  | m :: ms => ',' :: compactMember m ++ compactMembers ms

end

/-- A value on one line. -/
def compact (v : Value) : String := String.ofList (compactChars v)

/-! ### Over several lines -/

/-- A new line at a level. -/
def newLine (level : Nat) : List Char := '\n' :: List.replicate (2 * level) ' '

mutual

/-- A value over several lines, at a level. -/
def prettyChars (level : Nat) : Value → List Char
  | .array (v :: vs) =>
    '[' :: newLine (level + 1) ++ prettyChars (level + 1) v ++ prettyItems level vs
  | .object (m :: ms) =>
    '\x7b' :: newLine (level + 1) ++ prettyMember (level + 1) m ++ prettyMembers level ms
  | v => compactChars v

/-- The items of an array after the first, and its end. -/
def prettyItems (level : Nat) : List Value → List Char
  | [] => newLine level ++ [']']
  | v :: vs => ',' :: newLine (level + 1) ++ prettyChars (level + 1) v ++ prettyItems level vs

/-- A member of an object. -/
def prettyMember (level : Nat) : String × Value → List Char
  | (name, v) => textChars name ++ ':' :: ' ' :: prettyChars level v

/-- The members of an object after the first, and its end. -/
def prettyMembers (level : Nat) : List (String × Value) → List Char
  | [] => newLine level ++ ['\x7d']
  | m :: ms =>
    ',' :: newLine (level + 1) ++ prettyMember (level + 1) m ++ prettyMembers level ms

end

/-- A value over several lines. -/
def pretty (v : Value) : String := String.ofList (prettyChars 0 v)

end RoutingFabric.Json
