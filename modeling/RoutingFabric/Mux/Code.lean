import RoutingFabric.ConfigBits
import RoutingFabric.Mux.Model

/-!
# Multiplexer codes

The configuration bits of a multiplexer are one field for each stage, stage 0 first. A field
selects one branch of its stage:

* a pass-transistor stage of two branches has one select line, any other one line for each
  branch, of which one is set;
* a resistive stage has a row and a column line for each branch. In a multiplexer of one stage
  the column is the one paired with the row; in any other, rows and columns have one line more,
  the extra row line is always set, and row and column agree.

Reading the bits back follows the multiplexer from its output to the inputs, and stops at the
first stage where an input is attached to the selected branch.
-/

namespace RoutingFabric.Mux

/-- `n` bits of which the bit at `i` alone is set. -/
def oneHot (n i : Nat) : List Bool := (List.range n).map (· == i)

/-- The index of the only bit that is set, if there is exactly one. -/
def oneHot? (bits : List Bool) : Option Nat :=
  if bits.count true = 1 then some (bits.idxOf true) else none

/-- A list of bits cut into so many fields of equal width. -/
def fields (width : Nat) : Nat → List Bool → List (List Bool)
  | 0, _ => []
  | more + 1, bits => bits.take width :: fields width more (bits.drop width)

namespace Model

/-! ### Fields -/

/-- The number of bits of the field of a stage. -/
def fieldWidth (m : Model) : Nat :=
  match m.circuit.technology, m.circuit.topology with
  | .passTransistor, .oneLevel => m.size
  | .passTransistor, _ => if m.basis = 2 then 1 else m.basis
  | .resistive, .oneLevel => 2 * m.size
  | .resistive, _ => 2 * (m.basis + 1)

/-- The number of configuration bits. -/
def confBits (m : Model) : Nat := m.levels * m.fieldWidth

/-- The number of configuration bits, which has to fit a machine word. -/
def confBitCount (m : Model) : Outcome Nat := word m.confBits

/-- The number of bits to hold active while the multiplexer is programmed. All multiplexers of
a block share them. -/
def reservedBits (m : Model) : Nat :=
  match m.circuit.technology, m.circuit.topology with
  | .passTransistor, _ => 0
  | .resistive, .oneLevel => m.size
  | .resistive, _ => m.basis + 1

/-- The column paired with a row in a resistive multiplexer of one stage. -/
def column (m : Model) (row : Nat) : Nat :=
  if row = 0 then 0
  else if row = m.size - 1 then m.size - 1
  else row + 1

/-- The field that selects a branch. -/
def field (m : Model) (branch : Nat) : List Bool :=
  match m.circuit.technology, m.circuit.topology with
  | .passTransistor, .oneLevel => oneHot m.size branch
  | .passTransistor, _ => if m.basis = 2 then [branch == 1] else oneHot m.basis branch
  | .resistive, .oneLevel => oneHot m.size branch ++ oneHot m.size (m.column branch)
  | .resistive, _ => oneHot m.basis branch ++ true :: oneHot (m.basis + 1) branch

/-- The branch a field selects, if the field is that of a branch. -/
def branch? (m : Model) (bits : List Bool) : Option Nat :=
  match m.circuit.technology, m.circuit.topology with
  | .passTransistor, .oneLevel => oneHot? bits
  | .passTransistor, _ =>
    if m.basis = 2 then some (if bits = [true] then 1 else 0) else oneHot? bits
  | .resistive, .oneLevel => do
    let row ← oneHot? (bits.take m.size)
    let column ← oneHot? (bits.drop m.size)
    if column = m.column row then some row else none
  | .resistive, _ => do
    let row ← oneHot? (bits.take m.basis)
    let column ← oneHot? (bits.drop (m.basis + 1))
    if bits[m.basis]? = some true ∧ column = row then some row else none

/-! ### Encoding -/

/-- So many digits of a number to the base of the model, the least significant first. -/
def digits (m : Model) : Nat → Nat → List Nat
  | 0, _ => []
  | more + 1, n => n % m.basis :: digits m more (n / m.basis)

/-- The bits that select an input: the field of each of its digits. -/
def code (m : Model) (path : Nat) : List Bool := (m.digits m.levels path).flatMap m.field

/-- The configuration bits that select an input. -/
def encode (m : Model) (path : Nat) : Outcome ConfigBits := do
  if path < m.size then
    let count ← m.confBitCount
    if count ≤ ConfigBits.capacity then .ok ⟨m.code path⟩ else fault .tooLarge
  else fail (.pathOutOfRange path m.size)

/-! ### Decoding -/

/-- The input reached from a branch of a stage by the branches selected below it, the next
stage first. `above` is the branch selected at the stage above. -/
def follow (m : Model) (above : Nat) : List Nat → Option Nat
  | [] => none
  | digit :: below =>
    let stage := below.length
    let branch := above * m.basis + digit
    let first := branch * m.span stage
    if m.size ≤ first then none
    else if m.position first = ⟨stage, branch⟩ then some first
    else follow m branch below

/-- The input that a list of bits selects. -/
def decodeBits (m : Model) (bits : List Bool) : Option Nat := do
  if bits.length = m.confBits then
    let branches ← (fields m.fieldWidth m.levels bits).mapM m.branch?
    m.follow 0 branches.reverse
  else none

/-- The input that configuration bits select, if they are a legal configuration and lead to
an input. -/
def decode (m : Model) (bits : ConfigBits) : Outcome (Option Nat) := do
  let _ ← m.confBitCount
  return m.decodeBits bits.toList

end Model

end RoutingFabric.Mux
