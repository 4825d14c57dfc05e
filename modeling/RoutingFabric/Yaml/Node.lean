import RoutingFabric.Yaml.Token

/-!
# Nodes of YAML

The tokens of a text make a tree of scalars, sequences and mappings. A node may have a tag, and
it may be given a name, by which the nodes after it can take its place.
-/

namespace RoutingFabric.Yaml

/-- Node of a document. -/
inductive Node where
  | scalar (style : Style) (tag : Option String) (text : String)
  | sequence (tag : Option String) (items : List Node)
  | mapping (tag : Option String) (pairs : List (Node × Node))
  /-- a node that stands for one it is itself a part of -/
  | unfinished

namespace Node

/-- A node of which nothing is written. -/
def missing (tag : Option String) : Node := .scalar .plain tag ""

/-- What a tag may start with. -/
abbrev Handles := List (String × String)

/-- The handles that need no directive. -/
def Handles.standard : Handles := [("!", "!"), ("!!", "tag:yaml.org,2002:")]

/-- The named nodes so far, in order. A node that is not finished yet has none. -/
abbrev Names := Array (String × Option Node)

/-- The node of a name: the one named last. -/
def find? (names : Names) (name : String) : Option Node :=
  (names.toList.reverse.find? (·.1 = name)).map fun (_, node) => node.getD .unfinished

/-- What is written in front of a node. -/
structure Properties where
  anchor : Option String := none
  tag : Option String := none

/-- The full tag. -/
def fullTag? (handles : Handles) (handle rest : String) : Option String :=
  if handle.isEmpty then some rest else (handles.lookup handle).map (· ++ rest)

/-- What is written in front of a node, in either order, and the tokens after it. -/
def properties? (handles : Handles) : List Token → Option (Properties × List Token)
  | .anchor name :: .tag handle rest :: ts | .tag handle rest :: .anchor name :: ts => do
    some ({ anchor := some name, tag := some (← fullTag? handles handle rest) }, ts)
  | .anchor name :: ts => some ({ anchor := some name }, ts)
  | .tag handle rest :: ts => do some ({ tag := some (← fullTag? handles handle rest) }, ts)
  | ts => some ({}, ts)

/-- Where a node stands. -/
inductive Context where
  | block
  /-- in a block mapping, whose values may be sequences without indentation -/
  | member
  | flow
  deriving DecidableEq

/-- The tag of a scalar. A scalar may be marked to have none. -/
def scalarTag (tag : Option String) : Option String := if tag = some "!" then none else tag

/-- What was read from tokens, the named nodes, and the tokens after it. -/
abbrev Taken (α : Type) := α × Names × List Token

/-- Whether the tokens go on with the end of a part that nothing is written for. -/
def endsPart (ends : List Token) (ts : List Token) : Bool :=
  match ts with
  | [] => true
  | t :: _ => ends.contains t

/-- The tokens after the comma that has to come before all items but the first. -/
def afterComma? (isFirst : Bool) (ts : List Token) : Option (List Token) :=
  if isFirst then some ts
  else
    match ts with
    | .flowEntry :: ts => some ts
    | _ => none

mutual

/-- A node. The number bounds how deep it is and how many parts it has. -/
def node? (handles : Handles) : Nat → Context → Names → List Token → Option (Taken Node)
  | 0, _, _, _ => none
  | _ + 1, _, names, .alias name :: ts => do some (← find? names name, names, ts)
  | most + 1, context, names, ts => do
    let (properties, ts) ← properties? handles ts
    let named := names.size
    let names := match properties.anchor with
      | some name => names.push (name, none)
      | none => names
    let (node, names, ts) ← content? handles most context properties names ts
    let names := match properties.anchor with
      | some name => names.setIfInBounds named (name, some node)
      | none => names
    some (node, names, ts)

/-- A node after what is written in front of it. -/
def content? (handles : Handles) :
    Nat → Context → Properties → Names → List Token → Option (Taken Node)
  | 0, _, _, _, _ => none
  | most + 1, context, properties, names, ts =>
    let tag := properties.tag
    match ts with
    | .scalar style text :: ts => some (.scalar style (scalarTag tag) text, names, ts)
    | .flowSequenceStart :: ts => do
      let (items, names, ts) ← flowItems? handles most true names ts
      some (.sequence tag items, names, ts)
    | .flowMappingStart :: ts => do
      let (pairs, names, ts) ← flowPairs? handles most true names ts
      some (.mapping tag pairs, names, ts)
    | .blockEntry :: rest => do
      if context = .member then
        let (items, names, ts) ← plainItems? handles most names (.blockEntry :: rest)
        some (.sequence tag items, names, ts)
      else if tag.isSome || properties.anchor.isSome then
        some (missing tag, names, .blockEntry :: rest)
      else none
    | .blockSequenceStart :: rest =>
      if context = .flow then none
      else do
        let (items, names, ts) ← blockItems? handles most names rest
        some (.sequence tag items, names, ts)
    | .blockMappingStart :: rest =>
      if context = .flow then none
      else do
        let (pairs, names, ts) ← blockPairs? handles most names rest
        some (.mapping tag pairs, names, ts)
    | ts =>
      if tag.isSome || properties.anchor.isSome then some (missing tag, names, ts) else none

/-- A part of a collection, of which nothing may be written. -/
def part? (handles : Handles) :
    Nat → Context → List Token → Names → List Token → Option (Taken Node)
  | 0, _, _, _, _ => none
  | most + 1, context, ends, names, ts =>
    if endsPart ends ts then some (missing none, names, ts)
    else node? handles most context names ts

/-- The items of a block sequence. -/
def blockItems? (handles : Handles) : Nat → Names → List Token → Option (Taken (List Node))
  | 0, _, _ => none
  | most + 1, names, .blockEntry :: ts => do
    let (item, names, ts) ← part? handles most .block [.blockEntry, .blockEnd] names ts
    let (items, names, ts) ← blockItems? handles most names ts
    some (item :: items, names, ts)
  | _ + 1, names, .blockEnd :: ts => some ([], names, ts)
  | _ + 1, _, _ => none

/-- The items of a sequence without indentation. -/
def plainItems? (handles : Handles) : Nat → Names → List Token → Option (Taken (List Node))
  | 0, _, _ => none
  | most + 1, names, .blockEntry :: ts => do
    let (item, names, ts) ←
      part? handles most .block [.blockEntry, .key, .value, .blockEnd] names ts
    let (items, names, ts) ← plainItems? handles most names ts
    some (item :: items, names, ts)
  | _ + 1, names, ts => some ([], names, ts)

/-- The pairs of a block mapping. -/
def blockPairs? (handles : Handles) : Nat → Names → List Token → Option (Taken (List (Node × Node)))
  | 0, _, _ => none
  | most + 1, names, .key :: ts => do
    let ends : List Token := [.key, .value, .blockEnd]
    let (key, names, ts) ← part? handles most .member ends names ts
    let (value, names, ts) ← match ts with
      | .value :: ts => part? handles most .member ends names ts
      | ts => some (missing none, names, ts)
    let (pairs, names, ts) ← blockPairs? handles most names ts
    some ((key, value) :: pairs, names, ts)
  | _ + 1, names, .blockEnd :: ts => some ([], names, ts)
  | _ + 1, _, _ => none

/-- The pair that stands as an item of a sequence in brackets, after the token of its key. -/
def flowPair? (handles : Handles) : Nat → Names → List Token → Option (Taken Node)
  | 0, _, _ => none
  | most + 1, names, ts => do
    let (key, names, ts) ←
      part? handles most .flow [.value, .flowEntry, .flowSequenceEnd] names ts
    let (value, names, ts) ← match ts with
      | .value :: ts => part? handles most .flow [.flowEntry, .flowSequenceEnd] names ts
      | ts => some (missing none, names, ts)
    some (.mapping none [(key, value)], names, ts)

/-- The items of a sequence in brackets, with a comma before all but the first. -/
def flowItems? (handles : Handles) : Nat → Bool → Names → List Token → Option (Taken (List Node))
  | 0, _, _, _ => none
  | most + 1, isFirst, names, ts =>
    match ts with
    | .flowSequenceEnd :: ts => some ([], names, ts)
    | ts => do
      let ts ← afterComma? isFirst ts
      match ts with
      | .flowSequenceEnd :: ts => some ([], names, ts)
      | ts => do
        let (item, names, ts) ← match ts with
          | .key :: ts => flowPair? handles most names ts
          | ts => node? handles most .flow names ts
        let (items, names, ts) ← flowItems? handles most false names ts
        some (item :: items, names, ts)

/-- The pairs of a mapping in brackets, with a comma before all but the first. -/
def flowPairs? (handles : Handles) :
    Nat → Bool → Names → List Token → Option (Taken (List (Node × Node)))
  | 0, _, _, _ => none
  | most + 1, isFirst, names, ts =>
    match ts with
    | .flowMappingEnd :: ts => some ([], names, ts)
    | ts => do
      let ts ← afterComma? isFirst ts
      match ts with
      | .flowMappingEnd :: ts => some ([], names, ts)
      | .key :: ts => do
        let (key, names, ts) ←
          part? handles most .flow [.value, .flowEntry, .flowMappingEnd] names ts
        let (value, names, ts) ← match ts with
          | .value :: ts => part? handles most .flow [.flowEntry, .flowMappingEnd] names ts
          | ts => some (missing none, names, ts)
        let (pairs, names, ts) ← flowPairs? handles most false names ts
        some ((key, value) :: pairs, names, ts)
      | ts => do
        let (key, names, ts) ← node? handles most .flow names ts
        let (pairs, names, ts) ← flowPairs? handles most false names ts
        some ((key, missing none) :: pairs, names, ts)

end

/-! ### Documents -/

/-- Whether a token is a directive. -/
def isDirective : Token → Bool
  | .versionDirective _ _ | .tagDirective _ _ => true
  | _ => false

/-- The handles that directives give a meaning to. There may be one version, which has to be one
of those known, and one directive for each handle. -/
def handles? (versioned : Bool) (handles : Handles) : List Token → Option Handles
  | [] => some handles
  | .versionDirective major minor :: ts =>
    if versioned || major ≠ 1 || (minor ≠ 1 && minor ≠ 2) then none else handles? true handles ts
  | .tagDirective handle start :: ts =>
    if (handles.lookup handle).isSome then none
    else handles? versioned (handles ++ [(handle, start)]) ts
  | _ => none

/-- The root of the only document. Only marks of its end may follow. -/
def rootOf? (handles : Handles) (ts : List Token) : Option Node := do
  let (node, _, rest) ← node? handles (4 * (ts.length + 1)) .block #[] ts
  if rest.all (· = .documentEnd) then some node else none

/-- The root of the document, if there is one. There may not be more than one document. -/
def ofTokens? (ts : List Token) : Option (Option Node) := do
  let directives := ts.takeWhile isDirective
  match ts.drop directives.length with
  | [] => if directives.isEmpty then some none else none
  | .documentStart :: rest => do
    let handles ← handles? false [] directives
    if rest.all (· = .documentEnd) then some (some (missing none))
    else some (some (← rootOf? (handles ++ Handles.standard) rest))
  | rest => if directives.isEmpty then some (some (← rootOf? Handles.standard rest)) else none

/-- The root of the document that a text holds, if it holds one. -/
def ofText? (text : String) : Option (Option Node) := do
  ofTokens? (← Token.ofText? text)

end Node

end RoutingFabric.Yaml
