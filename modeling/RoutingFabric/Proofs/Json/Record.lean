import RoutingFabric.Json.Record
import RoutingFabric.Proofs.Json.RoundTrip

/-!
# Records are read back

Lists, optional values and the fields of records are read back from how they are written if their
parts are. A number is read only if it fits a machine word, so that all numbers of a value have to.
-/

namespace RoutingFabric.Json

variable {α β : Type}

/-! ### Values of numbers that fit -/

/-- All plain numbers in a value fit a machine word. -/
inductive Value.Fits : Value → Prop where
  | null : Fits .null
  | bool (b : Bool) : Fits (.bool b)
  | number {n : Nat} (lt : n < wordLimit) : Fits (.number n)
  | otherNumber (literal : String) : Fits (.otherNumber literal)
  | text (s : String) : Fits (.text s)
  | broken : Fits .broken
  | array {items : List Value} (items_fit : ∀ v ∈ items, Fits v) : Fits (.array items)
  | object {members : List (String × Value)} (members_fit : ∀ m ∈ members, Fits m.2) :
    Fits (.object members)

attribute [simp] Value.Fits.null Value.Fits.bool Value.Fits.text

namespace Value

variable {items : List Value} {members : List (String × Value)} {f : α → Value}

/-- A number fits if it is below the limit. -/
@[simp] theorem fits_number_iff {n : Nat} : (number n).Fits ↔ n < wordLimit := by
  constructor
  · rintro ⟨⟩
    assumption
  · apply Fits.number

/-- An array fits if its items do. -/
@[simp] theorem fits_array_iff : (array items).Fits ↔ ∀ v ∈ items, v.Fits := by
  constructor
  · rintro ⟨⟩
    assumption
  · apply Fits.array

/-- An object fits if the values of its members do. -/
@[simp] theorem fits_object_iff : (object members).Fits ↔ ∀ m ∈ members, m.2.Fits := by
  constructor
  · rintro ⟨⟩
    assumption
  · apply Fits.object

/-- A list fits if what it is made of does. -/
@[simp] theorem fits_ofList_iff {xs : List α} : (ofList f xs).Fits ↔ ∀ x ∈ xs, (f x).Fits := by
  simp [ofList]

/-- An optional value fits if it does when it is there. -/
@[simp] theorem fits_ofOption_iff {o : Option α} : (ofOption f o).Fits ↔ ∀ x ∈ o, (f x).Fits := by
  cases o <;> simp [ofOption]

end Value

/-! ### Values that stand for themselves -/

attribute [simp] Plain.null Plain.bool Plain.number Plain.text

/-- An array stands for itself if its items do. -/
@[simp] theorem plain_array_iff {items : List Value} :
  Plain (.array items) ↔ ∀ v ∈ items, Plain v
  := by
  constructor
  · rintro ⟨⟩
    assumption
  · apply Plain.array

/-- An object stands for itself if the values of its members do. -/
@[simp] theorem plain_object_iff {members : List (String × Value)} :
  Plain (.object members) ↔ ∀ m ∈ members, Plain m.2
  := by
  constructor
  · rintro ⟨⟩
    assumption
  · apply Plain.object

/-- A list stands for itself if what it is made of does. -/
@[simp] theorem plain_ofList_iff {f : α → Value} {xs : List α} :
  Plain (.ofList f xs) ↔ ∀ x ∈ xs, Plain (f x)
  := by
  simp [Value.ofList]

/-- An optional value stands for itself if it does when it is there. -/
@[simp] theorem plain_ofOption_iff {f : α → Value} {o : Option α} :
  Plain (.ofOption f o) ↔ ∀ x ∈ o, Plain (f x)
  := by
  cases o <;> simp [Value.ofOption]

/-! ### Reading the parts of a record -/

namespace Decode

variable {decode : Decode β} {f : α → Value} {view : α → β}

/-- A number that fits is read back. -/
@[simp] theorem number_number {n : Nat} (h : n < wordLimit) : number (.number n) = some n := by
  rw [number, if_pos h]

/-- A text is read back. -/
@[simp] theorem text_text (s : String) : text (.text s) = some s := rfl

/-- A truth value is read back. -/
@[simp] theorem bool_bool (b : Bool) : Decode.bool (.bool b) = some b := rfl

/-- A list is read back if what it is made of is. -/
theorem list_ofList {xs : List α} (h : ∀ x ∈ xs, decode (f x) = some (view x)) :
  list decode (.ofList f xs) = some (xs.map view)
  := by
  induction xs with
  | nil => rfl
  | cons x xs ih =>
    have hrest := ih fun y hy => h y (List.mem_cons_of_mem x hy)
    rw [Value.ofList, list, List.map_cons, List.mapM_cons, h x List.mem_cons_self]
    rw [Value.ofList, list] at hrest
    rw [hrest]
    rfl

/-- A table is read back if what it is made of is. -/
theorem table_ofList {xs : Array α} (h : ∀ x ∈ xs.toList, decode (f x) = some (view x)) :
  table decode (.ofList f xs.toList) = some (xs.map view)
  := by
  rw [table, list_ofList h, Option.map_some, ← List.map_toArray]

/-- An optional value is read back if it is when it is there, and if its reader takes no null. -/
theorem nullable_ofOption {o : Option α} (h : ∀ x ∈ o, decode (f x) = some (view x))
    (hnull : decode .null = none) :
  nullable decode (.ofOption f o) = some (o.map view)
  := by
  cases o with
  | none => rfl
  | some x =>
    have hx := h x rfl
    rw [Value.ofOption, nullable.eq_def]
    split
    case h_1 heq =>
      rw [heq, hnull] at hx
      cases hx
    case h_2 => rw [hx, Option.map_some, Option.map_some]

/-- A record is read from the members of an object. -/
@[simp] theorem record_object (fields : Fields α) (members : List (String × Value)) :
  record fields (.object members) = (fields.run (.named members)).map Prod.fst
  := rfl

end Decode

namespace Fields

variable (name : String) (decode : Decode α) (members : List (String × Value))

/-- What an object holds for a field is the member of its name, which must not be given twice. -/
theorem run_next :
  (next name).run (.named members)
    = match members.filter (·.1 == name) with
      | [] => some (none, .named members)
      | [(_, v)] => some (some v, .named members)
      | _ => none
  := rfl

/-- A field that has to be given is read from the member of its name. -/
@[simp] theorem run_required :
  (required name decode).run (.named members)
    = match members.filter (·.1 == name) with
      | [(_, v)] => (decode v).map (·, .named members)
      | _ => none
  := by
  rw [required, StateT.run_bind, run_next]
  generalize members.filter (·.1 == name) = found
  rcases found with _ | ⟨⟨_, v⟩, _ | ⟨_, _⟩⟩
  · rfl
  · cases h : decode v <;> simp [h]
  · rfl

/-- A field that has a default is read from the member of its name. -/
@[simp] theorem run_withDefault (a : α) :
  (withDefault name a decode).run (.named members)
    = match members.filter (·.1 == name) with
      | [] => some (a, .named members)
      | [(_, v)] => (decode v).map (·, .named members)
      | _ => none
  := by
  rw [withDefault, StateT.run_bind, run_next]
  generalize members.filter (·.1 == name) = found
  rcases found with _ | ⟨⟨_, v⟩, _ | ⟨_, _⟩⟩
  · rfl
  · cases h : decode v <;> simp [h]
  · rfl

/-- A field that may be missing is read from the member of its name. -/
@[simp] theorem run_missable :
  (missable name decode).run (.named members)
    = match members.filter (·.1 == name) with
      | [] => some (none, .named members)
      | [(_, v)] => (Decode.nullable decode v).map (·, .named members)
      | _ => none
  := by
  rw [missable, StateT.run_bind, run_next]
  generalize members.filter (·.1 == name) = found
  rcases found with _ | ⟨⟨_, v⟩, _ | ⟨_, _⟩⟩
  · rfl
  · cases h : Decode.nullable decode v <;> simp [h]
  · rfl

end Fields

end RoutingFabric.Json
