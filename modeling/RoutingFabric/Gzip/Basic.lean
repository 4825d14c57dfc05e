import RoutingFabric.Files.Folder
import RoutingFabric.Gzip.Inflate

/-!
# Compressed files

A compressed file starts with a header, in which a name and a comment may stand. The deflated
data follows, and then a check sum and the length of the data.
-/

namespace RoutingFabric.Gzip

/-! ### Check sums -/

/-- One bit of a check sum. -/
def checkBit (sum : UInt32) : UInt32 :=
  if sum &&& 1 = 1 then (sum >>> 1) ^^^ 0xedb88320 else sum >>> 1

/-- One byte of a check sum. -/
def checkByte (sum : UInt32) (byte : UInt8) : UInt32 :=
  Nat.repeat checkBit 8 (sum ^^^ byte.toUInt32)

/-- The check sum of bytes. -/
def checkSum (data : ByteArray) : UInt32 := data.foldl checkByte 0xffffffff ^^^ 0xffffffff

/-! ### Headers -/

/-- The place after the bytes up to and with the next zero. The number bounds them. -/
def afterZero? (data : ByteArray) : Nat → Nat → Option Nat
  | 0, _ => none
  | most + 1, i =>
    match data[i]? with
    | some byte => if byte = 0 then some (i + 1) else afterZero? data most (i + 1)
    | none => none

/-- Whether a bit of the flags of a header is set. -/
def hasFlag (flags : UInt8) (bit : Nat) : Bool := flags.toNat.testBit bit

/-- The place after the header. -/
def afterHeader? (data : ByteArray) : Option Nat := do
  if data[0]? ≠ some 0x1f || data[1]? ≠ some 0x8b || data[2]? ≠ some 8 then none
  else
    let flags ← data[3]?
    let place := 10
    let place ← if hasFlag flags 2 then do
        let low ← data[place]?
        let high ← data[place + 1]?
        some (place + 2 + low.toNat + 256 * high.toNat)
      else some place
    let place ← if hasFlag flags 3 then afterZero? data data.size place else some place
    let place ← if hasFlag flags 4 then afterZero? data data.size place else some place
    some (if hasFlag flags 1 then place + 2 else place)

/-! ### Files -/

/-- The bytes of a number, the lowest first. -/
def bytesOf : Nat → Nat → List UInt8
  | 0, _ => []
  | more + 1, n => n.toUInt8 :: bytesOf more (n / 256)

/-- The largest number of bytes of a stored block. -/
def blockLimit : Nat := 65535

/-- The stored blocks of data from a place on. The number bounds them. -/
def storedBlocks (data : ByteArray) : Nat → Nat → List UInt8
  | 0, _ => []
  | more + 1, start =>
    let length := min blockLimit (data.size - start)
    let isLast := data.size ≤ start + length
    (if isLast then 1 else 0) :: bytesOf 2 length ++ bytesOf 2 (blockLimit - length)
      ++ (data.extract start (start + length)).toList
      ++ if isLast then [] else storedBlocks data more (start + length)

/-- A compressed file that stands for bytes. Its blocks are stored. -/
def pack (data : ByteArray) : ByteArray :=
  let header : List UInt8 := [0x1f, 0x8b, 8, 0, 0, 0, 0, 0, 0, 255]
  let blocks := storedBlocks data (data.size / blockLimit + 1) 0
  ⟨(header ++ blocks ++ bytesOf 4 (checkSum data).toNat ++ bytesOf 4 data.size).toArray⟩

/-- The bytes that a compressed file stands for. -/
def expand? (data : ByteArray) : Option ByteArray := do
  let start ← afterHeader? data
  let (out, s) ← inflate? { data, place := 8 * start }
  let (sum, s) ← s.align.number? 32
  let (size, _) ← s.number? 32
  if sum = (checkSum out).toNat && size = out.size % (1 <<< 32) then some out else none

/-- The content of a file of bytes. -/
def contentOf (data : ByteArray) : Files.Content :=
  match String.fromUTF8? data with
  | some text => .plain text
  | none =>
    match (expand? data).bind String.fromUTF8? with
    | some text => .compressed text
    | none => .binary

/-- The bytes of a file with a content. -/
def bytesOfContent : Files.Content → ByteArray
  | .plain text => text.toUTF8
  | .compressed text => pack text.toUTF8
  | .binary => .empty

end RoutingFabric.Gzip
