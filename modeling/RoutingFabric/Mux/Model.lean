import RoutingFabric.Mux.Circuit

/-!
# Multiplexer models

A multiplexer of `size` inputs is a chain of stages of `basis` branches each. Stage 0 is the
one next to the inputs, and the branch it selects is the least significant digit, to the base
`basis`, of the input.

Where `size` is no power of `basis`, the last input may have a branch of a higher stage to
itself. It is then attached to the highest such stage and needs no bits of the stages below.
Five inputs in stages of two:

    in0 ─┐
         ├[0]─┐
    in1 ─┘    ├[1]─┐
    in2 ─┐    │    │
         ├[0]─┘    ├[2]── out
    in3 ─┘         │
    in4 ───────────┘
-/

namespace RoutingFabric.Mux

/-- The stage an input is attached to, and its branch there. -/
structure Position where
  level : Nat
  offset : Nat
  deriving DecidableEq

/-- Multiplexer of a number of inputs, as a number of stages of a number of branches. -/
structure Model where
  size : Nat
  circuit : Circuit
  levels : Nat
  basis : Nat
  deriving DecidableEq

/-! ### Stages -/

/-- The least number of stages of two branches that reach `n` inputs. -/
def ceilLog2 (n : Nat) : Nat := if n ≤ 1 then 0 else Nat.log2 (n - 1) + 1

/-- Whether `exponent` stages of `basis` branches reach `size` inputs. Stages past the 64th
are not looked at: with two branches or more, 64 stages reach every machine word. -/
def reaches (size exponent basis : Nat) : Bool := size ≤ basis.pow (min exponent 64)

/-- The least number of branches, from `basis` on, with which `exponent` stages reach `size`
inputs. The first argument bounds the search. -/
def leastBasisFrom (size exponent : Nat) : Nat → Nat → Nat
  | 0, basis => basis
  | more + 1, basis =>
    if reaches size exponent basis then basis else leastBasisFrom size exponent more (basis + 1)

/-- The least number of branches, two or more, with which `exponent` stages reach `size`
inputs. -/
def leastBasis (size exponent : Nat) : Nat := leastBasisFrom size exponent size 2

/-- The largest exponent a power may be taken to, plus one. -/
def exponentLimit : Nat := 1 <<< 32

/-- The numbers of stages and of branches of a multiplexer of `size` inputs. The number of
stages is an exponent in the search for the number of branches, and only its lower 32 bits
count there; where these are all zero the search never ends. -/
def stages (size : Nat) : Topology → Outcome (Nat × Nat)
  | .oneLevel => .ok (1, size)
  | .tree => .ok (ceilLog2 size, 2)
  | .multiLevel 0 => fail (.noLevels size)
  | .multiLevel 1 => .ok (1, size)
  | .multiLevel levels =>
    if levels % exponentLimit = 0 then fault .endless
    else .ok (levels, leastBasis size (levels % exponentLimit))

/-- The bytes the position of an input takes. -/
def positionBytes : Nat := 16

namespace Model

/-- The model of a multiplexer of `size` inputs. -/
def build (size : Nat) (circuit : Circuit) : Outcome Model := do
  if size < 2 then
    fail (.tooFewInputs circuit.topology.name size)
  else
    let (levels, basis) ← stages size circuit.topology
    if tableLimit < positionBytes * size then fault .tooLarge
    else .ok ⟨size, circuit, levels, basis⟩

/-! ### Positions -/

/-- The number of inputs below a branch of a stage, at most the largest machine word. -/
def span (m : Model) (stage : Nat) : Nat := min (m.basis.pow (min stage 64)) (wordLimit - 1)

/-- The highest position of an input reached from one by at most so many steps up. A step up
is possible while the branch above holds no other input. -/
def climb (m : Model) (path : Nat) : Nat → Position → Position
  | 0, here => here
  | more + 1, here =>
    let stage := here.level + 1
    let span := m.span stage
    if path % span = 0 ∧ min ((path / span + 1) * span) m.size = path + 1 then
      climb m path more ⟨stage, path / span⟩
    else here

/-- The stage an input is attached to: the highest whose branch holds no other input. -/
def position (m : Model) (path : Nat) : Position := m.climb path (m.levels - 1) ⟨0, path⟩

/-- The positions of all inputs. -/
def positions (m : Model) : List Position := (List.range m.size).map m.position

end Model

end RoutingFabric.Mux
