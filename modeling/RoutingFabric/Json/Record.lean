import RoutingFabric.Json.Value
import RoutingFabric.Text.Word

/-!
# Records

A record is written as an object of its fields, or as an array of them in order. Names that the
record does not have are skipped, whatever they hold, but no field may be given twice. At the
end of an array fields that have a default may be left off; there may not be more items than
fields.
-/

namespace RoutingFabric.Json

/-- A reader of values. -/
abbrev Decode (α : Type) := Value → Option α

/-- What is left of a record to read. -/
inductive Record where
  | named (members : List (String × Value))
  | listed (items : List Value)

/-- A reader of the fields of a record, one after another. -/
abbrev Fields (α : Type) := StateT Record Option α

namespace Decode

/-- A plain number that fits a machine word. -/
def number : Decode Nat
  | .number n => if n < wordLimit then some n else none
  | _ => none

/-- A text. -/
def text : Decode String
  | .text s => some s
  | _ => none

/-- A truth value. -/
def bool : Decode Bool
  | .bool b => some b
  | _ => none

/-- A value that may be null. -/
def nullable {α : Type} (decode : Decode α) : Decode (Option α)
  | .null => some none
  | v => (decode v).map some

/-- An array. -/
def list {α : Type} (decode : Decode α) : Decode (List α)
  | .array items => items.mapM decode
  | _ => none

/-- An array, as a table. -/
def table {α : Type} (decode : Decode α) : Decode (Array α) := fun v =>
  (list decode v).map List.toArray

/-- An array of two. -/
def pair {α β : Type} (first : Decode α) (second : Decode β) : Decode (α × β)
  | .array [a, b] => do
    let a ← first a
    let b ← second b
    return (a, b)
  | _ => none

/-- One of a number of names, as a text or as an object that has it for a null member. -/
def name {α : Type} (table : List (String × α)) : Decode α
  | .text s => table.lookup s
  | .object [(s, .null)] => table.lookup s
  | _ => none

/-- A record. -/
def record {α : Type} (fields : Fields α) : Decode α
  | .object members => (fields.run (.named members)).map (·.1)
  | .array items => do
    let (a, rest) ← fields.run (.listed items)
    match rest with
    | .listed (_ :: _) => none
    | _ => some a
  | _ => none

end Decode

namespace Fields

/-- What a record holds for a field, if anything. The fields of an array are met in order. -/
def next (name : String) : Fields (Option Value)
  | .named members =>
    match members.filter (·.1 == name) with
    | [] => some (none, .named members)
    | [(_, v)] => some (some v, .named members)
    | _ => none
  | .listed [] => some (none, .listed [])
  | .listed (v :: rest) => some (some v, .listed rest)

/-- A field that has to be given. -/
def required {α : Type} (name : String) (decode : Decode α) : Fields α := do
  match ← next name with
  | some v => decode v
  | none => none

/-- A field that has a default. -/
def withDefault {α : Type} (name : String) (default : α) (decode : Decode α) : Fields α := do
  match ← next name with
  | some v => decode v
  | none => return default

/-- A field that may be null, and that may be missing from an object but not from an array. -/
def missable {α : Type} (name : String) (decode : Decode α) : Fields (Option α) := do
  match ← next name with
  | some v => Decode.nullable decode v
  | none =>
    match ← get with
    | .named _ => return none
    | .listed _ => none

end Fields

end RoutingFabric.Json
