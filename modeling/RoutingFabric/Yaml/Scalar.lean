import RoutingFabric.Json.Reader
import RoutingFabric.Yaml.Cursor

/-!
# Scalars of YAML

A scalar is a text in one of five styles. Inside a plain or quoted scalar the end of a line
stands for a space, unless empty lines follow, which stand for line feeds. A literal scalar keeps
the ends of its lines, a folded one folds them where neither line is indented further.
-/

namespace RoutingFabric.Yaml

/-- Style of a scalar. -/
inductive Style where
  | plain
  | single
  | double
  | literal
  | folded
  deriving DecidableEq

/-- A scalar, and the place after it. -/
structure Scanned where
  text : List Char
  next : Cursor
  /-- whether the place is on another line than the end of the scalar -/
  onNewLine : Bool := false

/-! ### Gaps -/

/-- Blanks and ends of lines: the blanks before the first end of a line, and the characters that
the ends of lines stand for. -/
structure Gap where
  blanks : List Char := []
  breaks : List Char := []

/-- What a gap inside a scalar stands for. -/
def Gap.fold (g : Gap) : List Char :=
  match g.breaks with
  | [] => g.blanks
  | ['\n'] => [' ']
  | '\n' :: more => more
  | breaks => breaks

/-- The gap at a place, and the place after it. `most` bounds its length. No tab may stand in a
line before the column `indent`. -/
def gap? (indent : Nat) : Nat → Gap → Cursor → Option (Gap × Cursor)
  | 0, g, c => some (g, c)
  | most + 1, g, c =>
    match c.head with
    | none => some (g, c)
    | some x =>
      if isBlank x then
        if g.breaks.isEmpty then gap? indent most { g with blanks := g.blanks ++ [x] } (c.skip 1)
        else if x = '\t' && c.column < indent then none
        else gap? indent most g (c.skip 1)
      else
        match c.nextLine? with
        | some (y, next) => gap? indent most { g with breaks := g.breaks ++ [y] } next
        | none => some (g, c)

/-! ### Plain scalars -/

/-- Whether a character ends a plain scalar inside brackets. -/
def isFlowMark (c : Char) : Bool := c = ',' || c = '[' || c = ']' || c = '\x7b' || c = '\x7d'

/-- The characters of a plain scalar up to a gap or its end. A colon ends the scalar where a gap
follows; inside brackets, no mark may follow a colon. -/
def plainRun? (inFlow : Bool) : List Char → Option (List Char)
  | [] => some []
  | x :: rest =>
    if isBlank x || isBreak x then some []
    else if x = ':' && inFlow && rest.head?.any (fun y => isFlowMark y || y = '?') then none
    else if x = ':' && isGap rest.head? then some []
    else if inFlow && isFlowMark x then some []
    else (plainRun? inFlow rest).map (x :: ·)

/-- A plain scalar from a place on, after `before` and a gap that stands for `between`. Outside
of brackets it ends before a line that is not indented by `indent`. -/
def plain? (inFlow : Bool) (indent : Nat) : Nat → Scanned → List Char → Cursor → Option Scanned
  | 0, before, _, _ => some before
  | most + 1, before, between, c =>
    if c.isDocumentMarker || c.starts '#' then some before
    else do
      let run ← plainRun? inFlow c.rest
      match run with
      | [] => some before
      | _ =>
        let here := c.skip run.length
        let text := before.text ++ between ++ run
        let (gap, next) ← gap? indent here.rest.length {} here
        let after : Scanned := { text, next, onNewLine := !gap.breaks.isEmpty }
        if gap.blanks.isEmpty && gap.breaks.isEmpty then some after
        else if !inFlow && next.column < indent then some after
        else plain? inFlow indent most after gap.fold next

/-! ### Quoted scalars -/

/-- The number of hexadecimal digits after a letter that announces the code of a character. -/
def codeLength : Char → Option Nat
  | 'x' => some 2
  | 'u' => some 4
  | 'U' => some 8
  | _ => none

/-- The character that a letter after a backslash stands for. -/
def escape? (c : Char) : Option Nat :=
  match c with
  | '0' => some 0
  | 'a' => some 7
  | 'b' => some 8
  | 't' => some 9
  | '\t' => some 9
  | 'n' => some 10
  | 'v' => some 11
  | 'f' => some 12
  | 'r' => some 13
  | 'e' => some 27
  | ' ' => some 32
  | '"' => some 34
  | '/' => some 47
  | '\\' => some 92
  | 'N' => some 0x85
  | '_' => some 0xa0
  | 'L' => some 0x2028
  | 'P' => some 0x2029
  | _ => none

/-- The character of a code in hexadecimal digits. -/
def coded? (digits : List Char) : Option Char := do
  let values ← digits.mapM Json.hexValue?
  let n := values.foldl (fun n d => 16 * n + d) 0
  if n < 0xd800 || (0xe000 ≤ n && n ≤ 0x10ffff) then some (Char.ofNat n) else none

/-- What follows in a quoted scalar. -/
inductive Piece where
  /-- characters, and the place after them -/
  | text (cs : List Char) (next : Cursor)
  /-- the end of a line that a backslash hides -/
  | hiddenBreak (next : Cursor)
  | close
  | gap

/-- What follows in a quoted scalar, unless the text ends. -/
def piece? (quote : Char) (c : Cursor) : Option Piece := do
  let x ← c.head
  if isBlank x || isBreak x then some .gap
  else if x = '\'' && quote = '\'' && c.ahead 1 == some '\'' then some (.text ['\''] (c.skip 2))
  else if x = quote then some .close
  else if x = '\\' && quote = '"' then do
    let y ← c.ahead 1
    if isBreak y then
      let (_, next) ← (c.skip 1).nextLine?
      some (.hiddenBreak next)
    else
      match codeLength y with
      | some n => do
        let digits := ((c.skip 2).rest.take n)
        if digits.length < n then none
        else do
          let z ← coded? digits
          some (.text [z] (c.skip (2 + n)))
      | none => do
        let z ← escape? y
        some (.text [Char.ofNat z] (c.skip 2))
  else some (.text [x] (c.skip 1))

/-- The place after blanks and ends of lines, and what the ends of lines stand for. -/
def emptyLines (most : Nat) (c : Cursor) : List Char × Cursor :=
  match gap? 0 most { breaks := ['\n'] } c with
  | some (g, next) => (g.breaks.drop 1, next)
  | none => ([], c)

/-- A quoted scalar from a place inside of it on, after the characters `before`. -/
def quoted? (quote : Char) : Nat → List Char → Cursor → Option Scanned
  | 0, _, _ => none
  | most + 1, before, c =>
    if c.isDocumentMarker then none
    else do
      match ← piece? quote c with
      | .close => some { text := before, next := c.skip 1 }
      | .text cs next => quoted? quote most (before ++ cs) next
      | .hiddenBreak next =>
        let (breaks, next) := emptyLines next.rest.length next
        quoted? quote most (before ++ breaks) next
      | .gap => do
        let (g, next) ← gap? 0 c.rest.length {} c
        quoted? quote most (before ++ g.fold) next

/-! ### Block scalars -/

/-- How the ends of lines at the end of a block scalar are dealt with. -/
inductive Chomp where
  | strip
  | clip
  | keep
  deriving DecidableEq

/-- The mark of how the end is dealt with. -/
def chompOf : Option Char → Option Chomp
  | some '+' => some .keep
  | some '-' => some .strip
  | _ => none

/-- The mark of a depth of indentation. -/
def depthOf : Option Char → Option Nat
  | some x => if Text.isDigit x then some (Text.digitValue x) else none
  | none => none

/-- The header of a block scalar, and the place after it. The mark of the end and the depth may
come in either order. -/
def header (c : Cursor) : Chomp × Option Nat × Cursor :=
  match chompOf c.head with
  | some chomp =>
    match depthOf (c.ahead 1) with
    | some n => (chomp, some n, c.skip 2)
    | none => (chomp, none, c.skip 1)
  | none =>
    match depthOf c.head with
    | some n =>
      match chompOf (c.ahead 1) with
      | some chomp => (chomp, some n, c.skip 2)
      | none => (.clip, some n, c.skip 1)
    | none => (.clip, none, c)

/-- The start of the first line of a block scalar, from the place after its header. Only blanks
and a comment may come before the end of the line. -/
def firstLine? (c : Cursor) : Option Cursor :=
  let c := c.skipWhile isBlank
  let c := if c.starts '#' then c.skipWhile (!isBreak ·) else c
  match c.head with
  | none => some c
  | some _ => c.nextLine?.map (·.2)

/-- Empty lines, and the indentation of the line after them: the characters that the ends of
lines stand for, the largest column that was reached, and the place. No spaces from the column
`indent` on are part of the indentation, and no tab may stand before it. -/
def indentation? (indent : Option Nat) : Nat → List Char → Nat → Cursor →
    Option (List Char × Nat × Cursor)
  | 0, breaks, deepest, c => some (breaks, deepest, c)
  | most + 1, breaks, deepest, c =>
    let spaces := (c.rest.takeWhile (· = ' ')).length
    let c := c.skip (match indent with
      | none => spaces
      | some n => min spaces (n - c.column))
    let deepest := max deepest c.column
    if c.starts '\t' && indent.all (c.column < ·) then none
    else
      match c.nextLine? with
      | some (y, next) => indentation? indent most (breaks ++ [y]) deepest next
      | none => some (breaks, deepest, c)

/-- What the end of a line of a block scalar and the empty lines after it stand for. -/
def between (literal afterBlank beforeBlank : Bool) (lineEnd breaks : List Char) : List Char :=
  if !literal && lineEnd == ['\n'] && !afterBlank && !beforeBlank then
    if breaks.isEmpty then [' '] else breaks
  else lineEnd ++ breaks

/-- The lines of a block scalar from one on, after the characters `before`. The line before
started with a blank or not, and ended with `lineEnd`, with the empty lines `breaks` after it. -/
def blockLines? (literal : Bool) (chomp : Chomp) (indent : Nat) :
    Nat → List Char → Bool → List Char → List Char → Cursor → Option Scanned
  | 0, _, _, _, _, _ => none
  | most + 1, before, afterBlank, lineEnd, breaks, c =>
    match c.head with
    | some x =>
      if c.column = indent then do
        let blank := isBlank x
        let line := c.takeWhile (!isBreak ·)
        let before := before ++ between literal afterBlank blank lineEnd breaks ++ line
        let here := c.skip line.length
        let (lineEnd, next) := match here.nextLine? with
          | some (y, next) => ([y], next)
          | none => ([], here)
        let (breaks, _, next) ← indentation? (some indent) next.rest.length [] 0 next
        blockLines? literal chomp indent most before blank lineEnd breaks next
      else finish before lineEnd breaks c
    | none => finish before lineEnd breaks c
where
  /-- The scalar as it ends. -/
  finish (before lineEnd breaks : List Char) (c : Cursor) : Option Scanned :=
    match chomp with
    | .strip => some { text := before, next := c }
    | .clip => some { text := before ++ lineEnd, next := c }
    | .keep => some { text := before ++ lineEnd ++ breaks, next := c }

/-- A block scalar from the place after its mark on, in a block indented by `outer`, which is
less than zero outside of all blocks. -/
def block? (literal : Bool) (outer : Int) (c : Cursor) : Option Scanned := do
  let (chomp, depth, c) := header c
  if depth = some 0 then none
  else do
    let c ← firstLine? c
    let indent := depth.map fun n => (max outer 0).toNat + n
    let (breaks, deepest, next) ← indentation? indent c.rest.length [] 0 c
    let indent := indent.getD (max deepest (max (outer + 1) 1).toNat)
    blockLines? literal chomp indent (c.rest.length + 1) [] false [] breaks next

end RoutingFabric.Yaml
