import RoutingFabric.Outcome

/-!
# Even slices

A range of numbers is cut into a given number of slices, as even as they can be: the longer
slices come first, and none is longer than another by more than one. Where the range holds
fewer numbers than there are slices, the slices that would be empty are left out.
-/

namespace RoutingFabric

/-- A half-open range of numbers. -/
structure Range where
  start : Nat
  stop : Nat
  deriving DecidableEq

namespace Range

/-- How many numbers a range holds. -/
def length (r : Range) : Nat := r.stop - r.start

/-- The numbers of a range, in order. -/
def toList (r : Range) : List Nat := List.range' r.start r.length

/-- Adjacent ranges from `start` on, of `size` numbers each, the first `longer` of them of one
number more. -/
def adjacent (size : Nat) : Nat → Nat → Nat → List Range
  | 0, _, _ => []
  | count + 1, start, longer =>
    let stop := start + size + if longer = 0 then 0 else 1
    ⟨start, stop⟩ :: adjacent size count stop (longer - 1)

/-- A range cut into even slices. No slices at all count as one. -/
def slices (r : Range) (count : Nat) : List Range :=
  let count := max count 1
  adjacent (r.length / count) (min count r.length) r.start (r.length % count)

/-- The even slices of the range from `start` to `stop`, which have to be in order. -/
def slicesOf (start stop count : Nat) : Outcome (List Range) :=
  if stop < start then fault .overflow else .ok (slices ⟨start, stop⟩ count)

end Range

end RoutingFabric
