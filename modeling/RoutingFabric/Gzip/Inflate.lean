import RoutingFabric.Gzip.Code

/-!
# Inflating

Deflated data is a row of blocks. A block either stores bytes as they are, or is a row of symbols
of a prefix code: bytes, and distances back to bytes that are repeated. The code is a fixed one,
or it comes at the start of the block.
-/

namespace RoutingFabric.Gzip

/-- Bytes inflated so far, and the source after them. -/
abbrev Inflated := ByteArray × Source

/-! ### Repeated bytes -/

/-- The least length and the number of extra bits of each symbol of a length. -/
def lengthTable : Array (Nat × Nat) := #[
  (3, 0), (4, 0), (5, 0), (6, 0), (7, 0), (8, 0), (9, 0), (10, 0), (11, 1), (13, 1), (15, 1),
  (17, 1), (19, 2), (23, 2), (27, 2), (31, 2), (35, 3), (43, 3), (51, 3), (59, 3), (67, 4),
  (83, 4), (99, 4), (115, 4), (131, 5), (163, 5), (195, 5), (227, 5), (258, 0)]

/-- The least distance and the number of extra bits of each symbol of a distance. -/
def distanceTable : Array (Nat × Nat) := #[
  (1, 0), (2, 0), (3, 0), (4, 0), (5, 1), (7, 1), (9, 2), (13, 2), (17, 3), (25, 3), (33, 4),
  (49, 4), (65, 5), (97, 5), (129, 6), (193, 6), (257, 7), (385, 7), (513, 8), (769, 8),
  (1025, 9), (1537, 9), (2049, 10), (3073, 10), (4097, 11), (6145, 11), (8193, 12), (12289, 12),
  (16385, 13), (24577, 13)]

/-- The number that a symbol and its extra bits stand for. -/
def extended? (table : Array (Nat × Nat)) (symbol : Nat) (s : Source) : Option (Nat × Source) := do
  let (least, extra) ← table[symbol]?
  let (more, s) ← s.number? extra
  some (least + more, s)

/-- The bytes with so many more, each repeated from a distance back. -/
def repeated? (distance : Nat) : Nat → ByteArray → Option ByteArray
  | 0, out => some out
  | more + 1, out =>
    if distance ≤ out.size then do
      repeated? distance more (out.push (← out[out.size - distance]?))
    else none

/-! ### Blocks -/

/-- The symbol that ends a block. -/
def endOfBlock : Nat := 256

/-- The rest of a block of symbols. The number bounds the symbols. -/
def symbols? (codes : PrefixCode × PrefixCode) : Nat → ByteArray → Source → Option Inflated
  | 0, _, _ => none
  | most + 1, out, s => do
    let (symbol, s) ← codes.1.symbol? s
    if symbol < endOfBlock then symbols? codes most (out.push symbol.toUInt8) s
    else if symbol = endOfBlock then some (out, s)
    else
      let (length, s) ← extended? lengthTable (symbol - endOfBlock - 1) s
      let (symbol, s) ← codes.2.symbol? s
      let (distance, s) ← extended? distanceTable symbol s
      symbols? codes most (← repeated? distance length out) s

/-- The fixed codes. -/
def fixedCodes : PrefixCode × PrefixCode :=
  (.ofLengths (List.replicate 144 8 ++ List.replicate 112 9 ++ List.replicate 24 7
      ++ List.replicate 8 8),
   .ofLengths (List.replicate 30 5))

/-- The order in which the lengths of the code of lengths come. -/
def lengthOrder : List Nat := [16, 17, 18, 0, 8, 7, 9, 6, 10, 5, 11, 4, 12, 3, 13, 2, 14, 1, 15]

/-- So many numbers of three bits. -/
def threeBits? : Nat → Source → Option (List Nat × Source)
  | 0, s => some ([], s)
  | more + 1, s => do
    let (n, s) ← s.number? 3
    let (rest, s) ← threeBits? more s
    some (n :: rest, s)

/-- The lengths of code words up to a number of them, after those read before, the last first.
The first argument bounds the symbols. -/
def codeLengths? (code : PrefixCode) (count : Nat) :
    Nat → List Nat → Source → Option (List Nat × Source)
  | 0, _, _ => none
  | most + 1, before, s =>
    if count ≤ before.length then
      if before.length = count then some (before.reverse, s) else none
    else do
      let (symbol, s) ← code.symbol? s
      if symbol < 16 then codeLengths? code count most (symbol :: before) s
      else if symbol = 16 then
        let last ← before.head?
        let (n, s) ← s.number? 2
        codeLengths? code count most (List.replicate (n + 3) last ++ before) s
      else if symbol = 17 then
        let (n, s) ← s.number? 3
        codeLengths? code count most (List.replicate (n + 3) 0 ++ before) s
      else
        let (n, s) ← s.number? 7
        codeLengths? code count most (List.replicate (n + 11) 0 ++ before) s

/-- The codes at the start of a block. -/
def blockCodes? (s : Source) : Option ((PrefixCode × PrefixCode) × Source) := do
  let (n, s) ← s.number? 5
  let (d, s) ← s.number? 5
  let (l, s) ← s.number? 4
  let (literals, distances) := (n + 257, d + 1)
  if 286 < literals || 30 < distances then none
  else
    let (lengths, s) ← threeBits? (l + 4) s
    let ordered := (lengthOrder.zip lengths)
    let code := PrefixCode.ofLengths ((List.range 19).map fun i => (ordered.lookup i).getD 0)
    if !code.isComplete then none
    else
      let total := literals + distances
      let (lengths, s) ← codeLengths? code total (total + 1) [] s
      let first := PrefixCode.ofLengths (lengths.take literals)
      let second := PrefixCode.ofLengths (lengths.drop literals)
      if first.isComplete && second.isComplete then some ((first, second), s) else none

/-- A stored block. -/
def stored? (out : ByteArray) (s : Source) : Option Inflated := do
  let s := s.align
  let (length, s) ← s.number? 16
  let (complement, s) ← s.number? 16
  let start := s.place / 8
  if length + complement ≠ 65535 || s.data.size < start + length then none
  else
    some (out ++ s.data.extract start (start + length), { s with place := s.place + 8 * length })

/-- The blocks from one on, up to the last. The number bounds them. -/
def blocks? : Nat → ByteArray → Source → Option Inflated
  | 0, _, _ => none
  | most + 1, out, s => do
    let (isLast, s) ← s.bit?
    let (kind, s) ← s.number? 2
    let bits := 8 * s.data.size + 1
    let (out, s) ← match kind with
      | 0 => stored? out s
      | 1 => symbols? fixedCodes bits out s
      | 2 => do
        let (codes, s) ← blockCodes? s
        symbols? codes bits out s
      | _ => none
    if isLast = 1 then some (out, s) else blocks? most out s

/-- The bytes that deflated data stands for, and the source after it. -/
def inflate? (s : Source) : Option Inflated := blocks? (8 * s.data.size + 1) .empty s

end RoutingFabric.Gzip
