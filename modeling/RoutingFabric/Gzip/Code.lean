/-!
# Prefix codes

Bits are read from bytes, the lowest bit of a byte first. A prefix code is given by the lengths
of its code words: shorter words come first, and words of one length are in the order of their
symbols.
-/

namespace RoutingFabric.Gzip

/-- Bytes, and a place among their bits. -/
structure Source where
  data : ByteArray
  place : Nat := 0

namespace Source

/-- The next bit, and the source after it. -/
def bit? (s : Source) : Option (Nat × Source) :=
  match s.data[s.place / 8]? with
  | some byte =>
    some ((byte.toNat >>> (s.place % 8)) % 2, { s with place := s.place + 1 })
  | none => none

/-- The number of so many bits, the lowest first, and the source after them. -/
def number? (s : Source) : Nat → Option (Nat × Source)
  | 0 => some (0, s)
  | n + 1 => do
    let (low, s) ← s.bit?
    let (high, s) ← number? s n
    some (low + 2 * high, s)

/-- The source from the next whole byte on. -/
def align (s : Source) : Source := { s with place := (s.place + 7) / 8 * 8 }

end Source

/-- The longest code word. -/
def longest : Nat := 15

/-- A prefix code: how many code words there are of each length, and the symbols in the order of
their code words. -/
structure PrefixCode where
  counts : Array Nat
  symbols : Array Nat

namespace PrefixCode

/-- The code of symbols whose code words have the lengths given. A symbol of length zero has
none. -/
def ofLengths (lengths : List Nat) : PrefixCode where
  counts := ((List.range (longest + 1)).map fun n => if n = 0 then 0 else lengths.count n).toArray
  symbols := ((List.range (longest + 1)).flatMap fun n =>
    if n = 0 then [] else (lengths.zipIdx.filter (·.1 = n)).map (·.2)).toArray

/-- Whether no code words are left over or missing, or there is at most one. -/
def isComplete (c : PrefixCode) : Bool :=
  let taken := c.counts.toList.zipIdx.foldr
    (fun (n, length) taken => n <<< (longest - length) + taken) 0
  taken = 1 <<< longest || (c.symbols.size ≤ 1 && taken ≤ (1 <<< longest) / 2)

/-- The symbol of the next code word, from `word` on, of which `length` bits are read. The words
of that length start with `first`, and their symbols come after `index` others. -/
def symbolFrom (c : PrefixCode) :
    Nat → Nat → Nat → Nat → Nat → Source → Option (Nat × Source)
  | 0, _, _, _, _, _ => none
  | more + 1, length, word, first, index, s => do
    let (bit, s) ← s.bit?
    let length := length + 1
    let word := 2 * word + bit
    let first := 2 * first
    let count := c.counts[length]?.getD 0
    if first ≤ word && word < first + count then
      let symbol ← c.symbols[index + (word - first)]?
      some (symbol, s)
    else symbolFrom c more length word (first + count) (index + count) s

/-- The symbol of the next code word, and the source after it. -/
def symbol? (c : PrefixCode) (s : Source) : Option (Nat × Source) :=
  c.symbolFrom longest 0 0 0 0 s

end PrefixCode

end RoutingFabric.Gzip
