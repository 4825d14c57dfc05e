import RoutingFabric.Outcome

/-!
# Configuration bits

Configuration bits are a list of booleans, the first to be shifted out at the front. Their
text is a string of zeros and ones in that order.
-/

namespace RoutingFabric

/-- A string of configuration bits. -/
structure ConfigBits where
  toList : List Bool
  deriving DecidableEq

namespace ConfigBits

/-- The largest number of bits a string may hold. -/
def capacity : Nat := (1 <<< 61) - 1

/-- No bits. -/
def empty : ConfigBits := ⟨[]⟩

/-- A string of unset bits. -/
def zeros (n : Nat) : Outcome ConfigBits :=
  if n ≤ capacity then .ok ⟨List.replicate n false⟩ else fault .tooLarge

/-- The number of bits. -/
def length (b : ConfigBits) : Nat := b.toList.length

/-- Whether there are no bits. -/
def isEmpty (b : ConfigBits) : Bool := b.toList.isEmpty

/-- The bit at an index. -/
def get (b : ConfigBits) (i : Nat) : Outcome Bool :=
  match b.toList[i]? with
  | some x => .ok x
  | none => fault .outOfRange

/-- The string with the bit at an index changed. -/
def set (b : ConfigBits) (i : Nat) (x : Bool) : Outcome ConfigBits :=
  if i < b.length then .ok ⟨b.toList.set i x⟩ else fault .outOfRange

/-- One string after another. -/
def append (a b : ConfigBits) : ConfigBits := ⟨a.toList ++ b.toList⟩

instance : Append ConfigBits := ⟨append⟩

/-- The number of bits that are set. -/
def ones (b : ConfigBits) : Nat := b.toList.count true

/-- The zeros and ones of a string of bits. -/
def text (b : ConfigBits) : String :=
  String.ofList (b.toList.map fun x => if x then '1' else '0')

/-- The bits a text of zeros and ones stands for. Whatever is not a one is a zero. -/
def ofText (s : String) : ConfigBits := ⟨s.toList.map (· == '1')⟩

/-- The bits of one string after another. -/
@[simp] theorem toList_append (a b : ConfigBits) : (a ++ b).toList = a.toList ++ b.toList := rfl

/-- The lengths of strings add up. -/
@[simp] theorem length_append (a b : ConfigBits) : (a ++ b).length = a.length + b.length := by
  simp [length]

/-- No bits are an empty list. -/
@[simp] theorem toList_empty : empty.toList = [] := rfl

end ConfigBits

end RoutingFabric
