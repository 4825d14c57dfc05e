import RoutingFabric.Yaml.Scalar

/-!
# Tokens of YAML

A text is cut into tokens. Indentation shows in the tokens: blocks have a token where they start
and one where they end. Whether a token is the key of a mapping is only known when a colon
follows it on its line; the token of the key is then put in front of it.
-/

namespace RoutingFabric.Yaml

/-- Token of a text. -/
inductive Token where
  | versionDirective (major minor : Nat)
  | tagDirective (handle start : String)
  | documentStart
  | documentEnd
  | blockSequenceStart
  | blockMappingStart
  | blockEnd
  | flowSequenceStart
  | flowSequenceEnd
  | flowMappingStart
  | flowMappingEnd
  | blockEntry
  | flowEntry
  | key
  | value
  | alias (name : String)
  | anchor (name : String)
  /-- a tag as the handle of a directive and what follows it -/
  | tag (handle rest : String)
  | scalar (style : Style) (text : String)
  deriving DecidableEq

/-- Where a key may have started: the number of tokens before it, and its place. A key that has
to be one starts a line of a block mapping. -/
structure KeySpot where
  tokens : Nat
  index : Nat
  line : Nat
  column : Nat
  needed : Bool

/-- State of cutting a text into tokens. The columns of the open blocks are listed from the
innermost out; outside of all blocks the column is less than zero. A possible key is kept for
the block and for each open bracket, from the innermost out. -/
structure Scan where
  cursor : Cursor
  tokens : Array Token := #[]
  indent : Int := -1
  outer : List Int := []
  keyAllowed : Bool := true
  key : Option KeySpot := none
  outerKeys : List (Option KeySpot) := []

namespace Scan

/-- Whether the place is inside of brackets. -/
def inFlow (s : Scan) : Bool := !s.outerKeys.isEmpty

/-- The state with a token more. -/
def push (s : Scan) (t : Token) : Scan := { s with tokens := s.tokens.push t }

/-- The state after a token that ends at a place. -/
def pushTo (s : Scan) (t : Token) (c : Cursor) : Scan := { s.push t with cursor := c }

/-! ### Keys -/

/-- Whether a key started too far back: on another line, or too many characters before. -/
def isStale (c : Cursor) (k : KeySpot) : Bool := k.line < c.line || k.index + 1024 < c.index

/-- A possible key, unless it started too far back. A key that is needed may not. -/
def freshKey? (c : Cursor) : Option KeySpot → Option (Option KeySpot)
  | none => some none
  | some k =>
    if isStale c k then if k.needed then none else some none
    else some (some k)

/-- The possible keys that did not start too far back. -/
def dropStale? (s : Scan) : Option Scan := do
  let key ← freshKey? s.cursor s.key
  let outerKeys ← s.outerKeys.mapM (freshKey? s.cursor)
  some { s with key, outerKeys }

/-- No key is possible any more. A key that is needed has to be one. -/
def dropKey? (s : Scan) : Option Scan :=
  match s.key with
  | some k => if k.needed then none else some { s with key := none }
  | none => some s

/-- What follows may be a key, if keys are allowed here. -/
def markKey? (s : Scan) : Option Scan :=
  if s.keyAllowed then do
    let c := s.cursor
    let needed := !s.inFlow && s.indent = c.column
    let s ← s.dropKey?
    some { s with key := some ⟨s.tokens.size, c.index, c.line, c.column, needed⟩ }
  else some s

/-- Whether a key may follow. -/
def allowKey (s : Scan) (allowed : Bool) : Scan := { s with keyAllowed := allowed }

/-! ### Blocks -/

/-- A block is opened if the column is further in than that of the innermost block. Its token
is put after so many tokens. -/
def openBlock (s : Scan) (t : Token) (column tokens : Nat) : Scan :=
  if !s.inFlow && s.indent < column then
    { s with
      indent := column
      outer := s.indent :: s.outer
      tokens := s.tokens.insertIdxIfInBounds tokens t }
  else s

/-- The blocks further in than a column are closed. -/
def closeBlocks (s : Scan) (column : Int) : Scan :=
  if s.inFlow then s
  else
    let closed := (s.indent :: s.outer).takeWhile (column < ·)
    match (s.indent :: s.outer).drop closed.length with
    | indent :: outer =>
      { s with indent, outer, tokens := s.tokens ++ Array.replicate closed.length .blockEnd }
    | [] => s

/-! ### Between tokens -/

/-- The next place that is neither blank nor in a comment. After the end of a line a key may
follow, unless the place is inside of brackets. The number bounds the characters passed. -/
def toNext : Nat → Scan → Scan
  | 0, s => s
  | most + 1, s =>
    let c := s.cursor
    let c := c.skipWhile fun x => x = ' ' || (x = '\t' && (s.inFlow || !s.keyAllowed))
    let c := if c.starts '#' then c.skipWhile (!isBreak ·) else c
    match c.nextLine? with
    | some (_, next) =>
      toNext most { s with cursor := next, keyAllowed := s.keyAllowed || !s.inFlow }
    | none => { s with cursor := c }

/-! ### Directives -/

/-- A number of digits, and the place after it. -/
def digits? (c : Cursor) : Option (Nat × Cursor) :=
  match c.takeWhile Text.isDigit with
  | [] => none
  | ds => if ds.length ≤ 9 then some (Text.numberOf ds, c.skip ds.length) else none

/-- The version of a directive, and the place after it. -/
def version? (c : Cursor) : Option (Token × Cursor) := do
  let (major, c) ← digits? c
  if c.starts '.' then
    let (minor, c) ← digits? (c.skip 1)
    some (.versionDirective major minor, c)
  else none

/-- Whether a character may stand in a tag without being escaped. -/
def isTagChar (c : Char) : Bool :=
  isWord c || ";/?:@&=+$.!~*'()".toList.contains c

/-- The characters of a tag from a place on. Those that are escaped are kept as their bytes. -/
def tagBytes (verbatim : Bool) : Nat → Cursor → Option (List UInt8 × Cursor)
  | 0, c => some ([], c)
  | most + 1, c =>
    match c.head with
    | none => some ([], c)
    | some x =>
      if isTagChar x || (verbatim && (x = ',' || x = '[' || x = ']')) then do
        let (bytes, next) ← tagBytes verbatim most (c.skip 1)
        some (x.toNat.toUInt8 :: bytes, next)
      else if x = '%' then do
        let high ← Json.hexValue? (← c.ahead 1)
        let low ← Json.hexValue? (← c.ahead 2)
        let (bytes, next) ← tagBytes verbatim most (c.skip 3)
        some ((16 * high + low).toUInt8 :: bytes, next)
      else some ([], c)

/-- The text of a tag from a place on, and the place after it. -/
def tagText? (verbatim : Bool) (c : Cursor) : Option (String × Cursor) := do
  let (bytes, next) ← tagBytes verbatim c.rest.length c
  let text ← String.fromUTF8? ⟨bytes.toArray⟩
  some (text, next)

/-- A handle from its first mark on, and the place after it. -/
def handle? (c : Cursor) : Option (String × Cursor) :=
  if c.starts '!' then
    let word := (c.skip 1).takeWhile isWord
    let next := c.skip (1 + word.length)
    if next.starts '!' then some (String.ofList ('!' :: word ++ ['!']), next.skip 1)
    else some (String.ofList ('!' :: word), next)
  else none

/-- Whether a handle is one that a directive may give a meaning to. -/
def isFullHandle (handle : String) : Bool := handle.toList.getLast? == some '!'

/-- A directive, and the place after it. -/
def directive? (c : Cursor) : Option (Token × Cursor) := do
  let name := (c.skip 1).takeWhile isWord
  let c := c.skip (1 + name.length)
  if !isGap c.head then none
  else
    let c := c.skipWhile isBlank
    match String.ofList name with
    | "YAML" => version? c
    | "TAG" => do
      let (handle, c) ← handle? c
      if !isFullHandle handle || !c.head.any isBlank then none
      else
        let (start, c) ← tagText? true (c.skipWhile isBlank)
        if start.isEmpty || !isGap c.head then none else some (.tagDirective handle start, c)
    | _ => none

/-! ### Tags and anchors -/

/-- The name of an anchor or an alias, and the place after it. -/
def name? (c : Cursor) : Option (String × Cursor) :=
  match c.takeWhile isWord with
  | [] => none
  | word =>
    let next := c.skip word.length
    let ends := match next.head with
      | none => true
      | some x => isBlank x || isBreak x || "?:,]\x7d%@\x60".toList.contains x
    if ends then some (String.ofList word, next) else none

/-- A tag, and the place after it. -/
def tag? (inFlow : Bool) (c : Cursor) : Option (Token × Cursor) := do
  let (tag, next) ←
    if c.ahead 1 == some '<' then do
      let (text, next) ← tagText? true (c.skip 2)
      if text.isEmpty || !next.starts '>' then none
      else some (Token.tag "" text, next.skip 1)
    else do
      let (handle, next) ← handle? c
      if handle ≠ "!" && isFullHandle handle then do
        let (text, next) ← tagText? false next
        if text.isEmpty then none else some (Token.tag handle text, next)
      else do
        let (text, next) ← tagText? false (c.skip 1)
        some (if text.isEmpty then Token.tag "" "!" else Token.tag "!" text, next)
  if isGap next.head || (inFlow && next.starts ',') then some (tag, next) else none

/-! ### Tokens -/

/-- The state after a directive. -/
def directive (s : Scan) : Option Scan := do
  let s ← (s.closeBlocks (-1)).dropKey?
  let (t, c) ← directive? s.cursor
  let c := c.skipWhile isBlank
  let c := if c.starts '#' then c.skipWhile (!isBreak ·) else c
  match c.head, c.nextLine? with
  | none, _ => some ((s.allowKey false).pushTo t c)
  | some _, some (_, next) => some ((s.allowKey false).pushTo t next)
  | some _, none => none

/-- The state after the mark of the start or the end of a document. -/
def documentMark (s : Scan) (t : Token) : Option Scan := do
  let s ← (s.closeBlocks (-1)).dropKey?
  some ((s.allowKey false).pushTo t (s.cursor.skip 3))

/-- The state after an opening bracket. -/
def openFlow (s : Scan) (t : Token) : Option Scan := do
  let s ← s.markKey?
  let s := (s.allowKey true).pushTo t (s.cursor.skip 1)
  some { s with key := none, outerKeys := s.key :: s.outerKeys }

/-- The state after a closing bracket. -/
def closeFlow (s : Scan) (t : Token) : Option Scan := do
  let s ← s.dropKey?
  let s := match s.outerKeys with
    | key :: outerKeys => { s with key, outerKeys }
    | [] => s
  some ((s.allowKey false).pushTo t (s.cursor.skip 1))

/-- The state after a comma inside of brackets. -/
def flowEntry (s : Scan) : Option Scan := do
  let s ← s.dropKey?
  some ((s.allowKey true).pushTo .flowEntry (s.cursor.skip 1))

/-- The state after the dash of an entry. -/
def blockEntry (s : Scan) : Option Scan := do
  if !s.inFlow && !s.keyAllowed then none
  else
    let s := s.openBlock .blockSequenceStart s.cursor.column s.tokens.size
    let s ← s.dropKey?
    some ((s.allowKey true).pushTo .blockEntry (s.cursor.skip 1))

/-- The state after the question mark of a key. -/
def explicitKey (s : Scan) : Option Scan := do
  if !s.inFlow && !s.keyAllowed then none
  else
    let s := s.openBlock .blockMappingStart s.cursor.column s.tokens.size
    let s ← s.dropKey?
    some ((s.allowKey !s.inFlow).pushTo .key (s.cursor.skip 1))

/-- The state after the colon of a value. The token of a key that has none yet is put in. -/
def value (s : Scan) : Option Scan :=
  match s.key with
  | some k =>
    let s := { s with tokens := s.tokens.insertIdxIfInBounds k.tokens .key, key := none }
    let s := s.openBlock .blockMappingStart k.column k.tokens
    some ((s.allowKey false).pushTo .value (s.cursor.skip 1))
  | none =>
    if !s.inFlow && !s.keyAllowed then none
    else
      let s := s.openBlock .blockMappingStart s.cursor.column s.tokens.size
      some ((s.allowKey !s.inFlow).pushTo .value (s.cursor.skip 1))

/-- The state after the name of an anchor or an alias. -/
def named (s : Scan) (token : String → Token) : Option Scan := do
  let s ← s.markKey?
  let (name, next) ← name? (s.cursor.skip 1)
  some ((s.allowKey false).pushTo (token name) next)

/-- The state after a tag. -/
def tag (s : Scan) : Option Scan := do
  let s ← s.markKey?
  let (t, next) ← tag? s.inFlow s.cursor
  some ((s.allowKey false).pushTo t next)

/-- The state after a block scalar. -/
def blockScalar (s : Scan) (style : Style) : Option Scan := do
  let s ← s.dropKey?
  let r ← block? (style = .literal) s.indent (s.cursor.skip 1)
  some ((s.allowKey true).pushTo (.scalar style (String.ofList r.text)) r.next)

/-- The state after a quoted scalar. -/
def quotedScalar (s : Scan) (style : Style) (quote : Char) : Option Scan := do
  let s ← s.markKey?
  let c := s.cursor.skip 1
  let r ← quoted? quote (c.rest.length + 1) [] c
  some ((s.allowKey false).pushTo (.scalar style (String.ofList r.text)) r.next)

/-- The state after a plain scalar. -/
def plainScalar (s : Scan) : Option Scan := do
  let s ← s.markKey?
  let c := s.cursor
  let r ← plain? s.inFlow (s.indent + 1).toNat (c.rest.length + 1) { text := [], next := c } [] c
  some ((s.allowKey r.onNewLine).pushTo (.scalar .plain (String.ofList r.text)) r.next)

/-- Whether no plain scalar starts with a character. -/
def isIndicator (c : Char) : Bool := "-?:,[]\x7b\x7d#&*!|>'\"%@\x60".toList.contains c

/-- The state after the next token, which starts with a character. -/
def token (s : Scan) (x : Char) : Option Scan :=
  let c := s.cursor
  let gap := isGap (c.ahead 1)
  if c.column = 0 && x = '%' then s.directive
  else if c.isMarker '-' then s.documentMark .documentStart
  else if c.isMarker '.' then s.documentMark .documentEnd
  else if x = '[' then s.openFlow .flowSequenceStart
  else if x = '\x7b' then s.openFlow .flowMappingStart
  else if x = ']' then s.closeFlow .flowSequenceEnd
  else if x = '\x7d' then s.closeFlow .flowMappingEnd
  else if x = ',' then s.flowEntry
  else if x = '-' && gap then s.blockEntry
  else if x = '?' && (s.inFlow || gap) then s.explicitKey
  else if x = ':' && (s.inFlow || gap) then s.value
  else if x = '*' then s.named .alias
  else if x = '&' then s.named .anchor
  else if x = '!' then s.tag
  else if x = '|' && !s.inFlow then s.blockScalar .literal
  else if x = '>' && !s.inFlow then s.blockScalar .folded
  else if x = '\'' then s.quotedScalar .single '\''
  else if x = '"' then s.quotedScalar .double '"'
  else if isBlank x then none
  else if !isIndicator x || (x = '-' && !gap) || (!s.inFlow && (x = '?' || x = ':') && !gap) then
    s.plainScalar
  else none

/-- The state at the end of the text. -/
def finish (s : Scan) : Option Scan := (s.closeBlocks (-1)).dropKey?

/-- The state at the end of the text, from a place in it on. The number bounds the tokens. -/
def run : Nat → Scan → Option Scan
  | 0, _ => none
  | most + 1, s => do
    let s := toNext (s.cursor.rest.length + 1) s
    let s ← s.dropStale?
    let s := s.closeBlocks s.cursor.column
    match s.cursor.head with
    | none => s.finish
    | some x => run most (← s.token x)

end Scan

/-- The tokens of a text. The mark of the order of bytes may come first. -/
def Token.ofText? (text : String) : Option (List Token) := do
  let chars := text.toList
  let chars := if chars.head?.any (·.toNat = 0xfeff) then chars.drop 1 else chars
  if chars.all isAllowed then
    let s ← Scan.run (chars.length + 1) { cursor := .start chars }
    some s.tokens.toList
  else none

end RoutingFabric.Yaml
