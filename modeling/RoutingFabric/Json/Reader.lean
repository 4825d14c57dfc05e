import RoutingFabric.Json.Value

/-!
# Reading JSON

A text is read strictly: no leading zeros, no comments, no trailing commas, nothing but blanks
around the value, and no control characters in texts. A text whose escapes stand for no
character is let through as broken, since it does no harm where nobody asks for it.
-/

namespace RoutingFabric.Json

/-! ### Blanks and numbers -/

/-- Whether a character may stand between the parts of a value. -/
def isBlank (c : Char) : Bool := c = ' ' || c = '\n' || c = '\t' || c = '\r'

/-- The rest after blanks. -/
def skipBlanks (s : List Char) : List Char := s.dropWhile isBlank

/-- A row of one or more digits, and the rest. -/
def digits? (s : List Char) : Option (List Char × List Char) :=
  match s.takeWhile Text.isDigit with
  | [] => none
  | ds => some (ds, s.dropWhile Text.isDigit)

/-- The digits in front of the point, and the rest. Only a single digit may be zero. -/
def whole? (s : List Char) : Option (List Char × List Char) := do
  let (ds, rest) ← digits? s
  match ds with
  | '0' :: _ :: _ => none
  | _ => some (ds, rest)

/-- The point and the digits after it, if there is a point, and the rest. -/
def fraction? (s : List Char) : Option (List Char × List Char) :=
  match s with
  | '.' :: rest => do
    let (ds, rest) ← digits? rest
    some ('.' :: ds, rest)
  | _ => some ([], s)

/-- The sign of an exponent, if there is one, and the rest. -/
def sign (s : List Char) : List Char × List Char :=
  match s with
  | '+' :: rest => (['+'], rest)
  | '-' :: rest => (['-'], rest)
  | _ => ([], s)

/-- The exponent, if there is one, and the rest. -/
def exponent? (s : List Char) : Option (List Char × List Char) :=
  match s with
  | c :: rest =>
    if c = 'e' || c = 'E' then do
      let (sign, rest) := sign rest
      let (ds, rest) ← digits? rest
      some (c :: sign ++ ds, rest)
    else some ([], s)
  | [] => some ([], [])

/-- A number, and the rest. -/
def number? (s : List Char) : Option (Value × List Char) := do
  let (minus, s) := match s with
    | '-' :: rest => (['-'], rest)
    | _ => ([], s)
  let (whole, s) ← whole? s
  let (fraction, s) ← fraction? s
  let (exponent, s) ← exponent? s
  if minus.isEmpty && fraction.isEmpty && exponent.isEmpty then
    some (.number (Text.numberOf whole), s)
  else some (.otherNumber (String.ofList (minus ++ whole ++ fraction ++ exponent)), s)

/-! ### Texts -/

/-- The value of a hexadecimal digit. -/
def hexValue? (c : Char) : Option Nat :=
  if '0' ≤ c && c ≤ '9' then some (c.toNat - 48)
  else if 'a' ≤ c && c ≤ 'f' then some (c.toNat - 87)
  else if 'A' ≤ c && c ≤ 'F' then some (c.toNat - 55)
  else none

/-- The value of four hexadecimal digits. -/
def hexValue4? (a b c d : Char) : Option Nat := do
  let a ← hexValue? a
  let b ← hexValue? b
  let c ← hexValue? c
  let d ← hexValue? d
  some (((a * 16 + b) * 16 + c) * 16 + d)

/-- The character that a letter after a backslash stands for. -/
def letterEscape? (c : Char) : Option Nat :=
  if c = '"' || c = '\\' || c = '/' then some c.toNat
  else if c = 'b' then some 8
  else if c = 'f' then some 12
  else if c = 'n' then some 10
  else if c = 'r' then some 13
  else if c = 't' then some 9
  else none

/-- The rest of a text as code units, and what follows its closing quote. A character beyond
the basic plane is a single unit, but may also be escaped as two. -/
def units? : List Char → Option (List Nat × List Char)
  | [] => none
  | '"' :: rest => some ([], rest)
  | '\\' :: 'u' :: a :: b :: c :: d :: rest => do
    let u ← hexValue4? a b c d
    let (us, rest) ← units? rest
    some (u :: us, rest)
  | '\\' :: c :: rest => do
    let u ← letterEscape? c
    let (us, rest) ← units? rest
    some (u :: us, rest)
  | c :: rest =>
    if c.toNat < 32 || c = '\\' then none
    else do
      let (us, rest) ← units? rest
      some (c.toNat :: us, rest)

/-- Whether a unit is the first of two. -/
def isHigh (u : Nat) : Bool := 0xd800 ≤ u && u < 0xdc00

/-- Whether a unit is the second of two. -/
def isLow (u : Nat) : Bool := 0xdc00 ≤ u && u < 0xe000

/-- The characters that code units stand for, unless one of two units stands alone. -/
def joinUnits : List Nat → Option (List Char)
  | [] => some []
  | u :: rest =>
    if isLow u then none
    else if isHigh u then
      match rest with
      | l :: rest =>
        if isLow l then do
          let cs ← joinUnits rest
          some (Char.ofNat (0x10000 + (u - 0xd800) * 0x400 + (l - 0xdc00)) :: cs)
        else none
      | [] => none
    else do
      let cs ← joinUnits rest
      some (Char.ofNat u :: cs)

/-- The text that code units stand for. -/
def textOf (units : List Nat) : Option String := (joinUnits units).map String.ofList

/-! ### Values -/

/-- An object of members, of which each name is a text. -/
def objectOf (members : List (Option String × Value)) : Value :=
  match members.mapM fun (name, v) => name.map fun name => (name, v) with
  | some members => .object members
  | none => .broken

mutual

/-- A value, and the rest. The number bounds how deep the value is and how many parts it has. -/
def value? : Nat → List Char → Option (Value × List Char)
  | 0, _ => none
  | more + 1, s =>
    match skipBlanks s with
    | 'n' :: 'u' :: 'l' :: 'l' :: rest => some (.null, rest)
    | 't' :: 'r' :: 'u' :: 'e' :: rest => some (.bool true, rest)
    | 'f' :: 'a' :: 'l' :: 's' :: 'e' :: rest => some (.bool false, rest)
    | '"' :: rest => do
      let (us, rest) ← units? rest
      match textOf us with
      | some s => some (.text s, rest)
      | none => some (.broken, rest)
    | '[' :: rest =>
      match skipBlanks rest with
      | ']' :: rest => some (.array [], rest)
      | rest => do
        let (items, rest) ← items? more rest
        some (.array items, rest)
    | '\x7b' :: rest =>
      match skipBlanks rest with
      | '\x7d' :: rest => some (.object [], rest)
      | rest => do
        let (members, rest) ← members? more rest
        some (objectOf members, rest)
    | s => number? s

/-- The items of an array from one on, and the rest after the array. -/
def items? : Nat → List Char → Option (List Value × List Char)
  | 0, _ => none
  | more + 1, s => do
    let (v, rest) ← value? more s
    match skipBlanks rest with
    | ',' :: rest => do
      let (vs, rest) ← items? more rest
      some (v :: vs, rest)
    | ']' :: rest => some ([v], rest)
    | _ => none

/-- The members of an object from one on, and the rest after the object. -/
def members? : Nat → List Char → Option (List (Option String × Value) × List Char)
  | 0, _ => none
  | more + 1, s =>
    match skipBlanks s with
    | '"' :: rest => do
      let (us, rest) ← units? rest
      match skipBlanks rest with
      | ':' :: rest => do
        let (v, rest) ← value? more rest
        match skipBlanks rest with
        | ',' :: rest => do
          let (ms, rest) ← members? more rest
          some ((textOf us, v) :: ms, rest)
        | '\x7d' :: rest => some ([(textOf us, v)], rest)
        | _ => none
      | _ => none
    | _ => none

end

/-- The value that a text holds. -/
def parse (s : String) : Option Value := do
  let cs := s.toList
  let (v, rest) ← value? (2 * cs.length + 2) cs
  if (skipBlanks rest).isEmpty then some v else none

end RoutingFabric.Json
