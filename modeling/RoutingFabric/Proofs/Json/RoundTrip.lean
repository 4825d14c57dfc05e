import RoutingFabric.Proofs.Json.Text

/-!
# Values are read back

A value that is written on one line is read back from it. The reader is given more steps than it
needs: it takes at most two for each character.
-/

namespace RoutingFabric.Json

variable {rest : List Char} {v : Value} {m : String × Value} {fuel : Nat}

/-- A value that stands for itself: all its numbers are plain rows of digits, and all its texts can
be read. -/
inductive Plain : Value → Prop where
  | null : Plain .null
  | bool (b : Bool) : Plain (.bool b)
  | number (n : Nat) : Plain (.number n)
  | text (s : String) : Plain (.text s)
  | array {items : List Value} (items_plain : ∀ v ∈ items, Plain v) : Plain (.array items)
  | object {members : List (String × Value)} (members_plain : ∀ m ∈ members, Plain m.2) :
    Plain (.object members)

/-- The value is read from its text, whatever follows. -/
def ReadBack (v : Value) : Prop :=
  ∀ fuel rest, 2 * (compactChars v).length ≤ fuel → EndsNumber rest →
    value? fuel (compactChars v ++ rest) = some (v, rest)

/-! ### The parts of a value -/

/-- Nothing is skipped in front of what is no blank. -/
theorem skipBlanks_cons {c : Char} (hc : isBlank c = false) :
  skipBlanks (c :: rest) = c :: rest
  := by
  rw [skipBlanks, List.dropWhile_cons, hc, if_neg Bool.false_ne_true]

/-- No text of a value starts with a blank or with the end of an array. -/
theorem exists_compactChars_eq_cons (hv : Plain v) :
  ∃ c cs, compactChars v = c :: cs ∧ isBlank c = false ∧ c ≠ ']'
  := by
  cases hv with
  | null => exact ⟨_, _, rfl, rfl, by decide⟩
  | bool b => cases b <;> exact ⟨_, _, rfl, rfl, by decide⟩
  | number n =>
    cases hdigits : Text.digitsOf n with
    | nil => cases digitsOf_ne_nil n hdigits
    | cons c cs =>
      have hc : Text.isDigit c = true := by
        apply isDigit_of_mem_digitsOf (n := n)
        rw [hdigits]
        apply List.mem_cons_self
      refine ⟨c, cs, hdigits, ?_, ?_⟩
      · cases hblank : isBlank c with
        | false => rfl
        | true =>
          simp only [isBlank, Bool.or_eq_true, decide_eq_true_eq] at hblank
          rcases hblank with ((rfl | rfl) | rfl) | rfl <;> cases hc
      · rintro rfl
        cases hc
  | text s => exact ⟨_, _, rfl, rfl, by decide⟩
  | @array items _ => cases items <;> exact ⟨_, _, rfl, rfl, by decide⟩
  | @object members _ => cases members <;> exact ⟨_, _, rfl, rfl, by decide⟩

/-- Nothing is skipped in front of a value. -/
theorem skipBlanks_compactChars (hv : Plain v) :
  skipBlanks (compactChars v ++ rest) = compactChars v ++ rest
  := by
  obtain ⟨c, cs, heq, hblank, -⟩ := exists_compactChars_eq_cons hv
  rw [heq]
  apply skipBlanks_cons hblank

/-- A text is its characters between quotes. -/
theorem textChars_append (s : String) (rest : List Char) :
  textChars s ++ rest = '"' :: (s.toList.flatMap escaped ++ '"' :: rest)
  := by
  rw [textChars, List.cons_append, List.cons_append, List.append_assoc, List.singleton_append]

/-- A text is read back. -/
theorem value?_textChars (s : String) :
  value? (fuel + 1) (textChars s ++ rest) = some (.text s, rest)
  := by
  rw [textChars_append, value?, skipBlanks_cons rfl]
  simp only [units?_flatMap, textOf_map_toNat, Option.bind_eq_bind, Option.bind_some]

/-- A number is read back. -/
theorem value?_digitsOf {n : Nat} (hrest : EndsNumber rest) :
  value? (fuel + 1) (Text.digitsOf n ++ rest) = some (.number n, rest)
  := by
  have hskip : skipBlanks (Text.digitsOf n ++ rest) = Text.digitsOf n ++ rest :=
    skipBlanks_compactChars (Plain.number n)
  rw [value?, hskip]
  split
  case h_7 => apply number?_digitsOf hrest
  all_goals
    rename_i heq
    cases isDigit_of_digitsOf_append heq

/-! ### Arrays and objects -/

/-- An item is read back, and then the items after a comma. -/
theorem items?_comma {vs : List Value} {rest' : List Char} (hv : ReadBack v)
    (hfuel : 2 * (compactChars v).length ≤ fuel) (hmore : items? fuel rest = some (vs, rest')) :
  items? (fuel + 1) (compactChars v ++ ',' :: rest) = some (v :: vs, rest')
  := by
  have hcomma : skipBlanks (',' :: rest) = ',' :: rest := skipBlanks_cons rfl
  rw [items?, hv fuel (',' :: rest) hfuel (endsNumber_cons (by decide))]
  simp only [hcomma, hmore, Option.bind_eq_bind, Option.bind_some]

/-- The last item of an array is read back. -/
theorem items?_end (hv : ReadBack v) (hfuel : 2 * (compactChars v).length ≤ fuel) :
  items? (fuel + 1) (compactChars v ++ ']' :: rest) = some ([v], rest)
  := by
  rw [items?, hv fuel (']' :: rest) hfuel (endsNumber_cons (by decide))]
  rfl

/-- The items of an array are read back if each of them is. -/
theorem items?_compactItems {vs : List Value} (fuel : Nat) (rest : List Char)
    (hvs : ∀ v' ∈ v :: vs, ReadBack v')
    (hfuel : 2 * ((compactChars v).length + (compactItems vs).length) ≤ fuel) :
  items? fuel (compactChars v ++ compactItems vs ++ rest) = some (v :: vs, rest)
  := by
  have hv := hvs v List.mem_cons_self
  induction vs generalizing v fuel with
  | nil =>
    rw [compactItems, List.length_singleton] at hfuel
    cases fuel with
    | zero => omega
    | succ fuel =>
      rw [compactItems, List.append_assoc]
      apply items?_end hv (by omega)
  | cons v' vs ih =>
    rw [compactItems, List.length_append, List.length_cons] at hfuel
    cases fuel with
    | zero => omega
    | succ fuel =>
      rw [compactItems, List.append_assoc]
      apply items?_comma hv (by omega)
      apply ih fuel (fun w hw => hvs w (List.mem_cons_of_mem v hw)) (by omega)
      apply hvs v' (List.mem_cons_of_mem v List.mem_cons_self)

/-- A member takes more characters than its value. -/
theorem length_compactChars_lt (m : String × Value) :
  (compactChars m.2).length < (compactMember m).length
  := by
  rw [compactMember, List.length_append, List.length_cons]
  omega

/-- A member is read back, and then the members after a comma. -/
theorem members?_comma {ms : List (Option String × Value)} {rest' : List Char}
    (hm : ReadBack m.2) (hfuel : 2 * (compactChars m.2).length ≤ fuel)
    (hmore : members? fuel rest = some (ms, rest')) :
  members? (fuel + 1) (compactMember m ++ ',' :: rest) = some ((some m.1, m.2) :: ms, rest')
  := by
  have hcolon : skipBlanks (':' :: (compactChars m.2 ++ ',' :: rest))
      = ':' :: (compactChars m.2 ++ ',' :: rest) := skipBlanks_cons rfl
  have hcomma : skipBlanks (',' :: rest) = ',' :: rest := skipBlanks_cons rfl
  have hvalue := hm fuel (',' :: rest) hfuel (endsNumber_cons (by decide))
  rw [compactMember, List.append_assoc, List.cons_append, textChars_append, members?,
    skipBlanks_cons rfl]
  simp only [units?_flatMap, hcolon, hvalue, hcomma, hmore, textOf_map_toNat, Option.bind_eq_bind,
    Option.bind_some]

/-- The last member of an object is read back. -/
theorem members?_end (hm : ReadBack m.2) (hfuel : 2 * (compactChars m.2).length ≤ fuel) :
  members? (fuel + 1) (compactMember m ++ '\x7d' :: rest) = some ([(some m.1, m.2)], rest)
  := by
  have hcolon : skipBlanks (':' :: (compactChars m.2 ++ '\x7d' :: rest))
      = ':' :: (compactChars m.2 ++ '\x7d' :: rest) := skipBlanks_cons rfl
  have hbrace : skipBlanks ('\x7d' :: rest) = '\x7d' :: rest := skipBlanks_cons rfl
  have hvalue := hm fuel ('\x7d' :: rest) hfuel (endsNumber_cons (by decide))
  rw [compactMember, List.append_assoc, List.cons_append, textChars_append, members?,
    skipBlanks_cons rfl]
  simp only [units?_flatMap, hcolon, hvalue, hbrace, textOf_map_toNat, Option.bind_eq_bind,
    Option.bind_some]

/-- The members of an object are read back if the value of each of them is. -/
theorem members?_compactMembers {ms : List (String × Value)} (fuel : Nat) (rest : List Char)
    (hms : ∀ m' ∈ m :: ms, ReadBack m'.2)
    (hfuel : 2 * ((compactMember m).length + (compactMembers ms).length) ≤ fuel) :
  members? fuel (compactMember m ++ compactMembers ms ++ rest)
    = some ((m :: ms).map fun m => (some m.1, m.2), rest)
  := by
  have hm := hms m List.mem_cons_self
  have hlength := length_compactChars_lt m
  induction ms generalizing m fuel with
  | nil =>
    cases fuel with
    | zero => omega
    | succ fuel =>
      rw [compactMembers, List.append_assoc]
      apply members?_end hm (by omega)
  | cons m' ms ih =>
    rw [compactMembers, List.length_append, List.length_cons] at hfuel
    cases fuel with
    | zero => omega
    | succ fuel =>
      rw [compactMembers, List.append_assoc, List.cons_append, List.cons_append]
      apply members?_comma hm (by omega)
      apply ih fuel (fun w hw => hms w (List.mem_cons_of_mem m hw)) (by omega)
      · apply hms m' (List.mem_cons_of_mem m List.mem_cons_self)
      · apply length_compactChars_lt m'

/-- The members whose names can be read make up an object. -/
theorem objectOf_map (ms : List (String × Value)) :
  objectOf (ms.map fun m => (some m.1, m.2)) = .object ms
  := by
  have hmapM : (ms.map fun m => (some m.1, m.2)).mapM
      (fun member => member.1.map fun name => (name, member.2)) = some ms := by
    induction ms with
    | nil => rfl
    | cons m ms ih =>
      rw [List.map_cons, List.mapM_cons, ih]
      rfl
  unfold objectOf
  -- the definition takes the pairs apart by a pattern, not by projections
  erw [hmapM]

/-- An array is read from its first item on. -/
theorem value?_array {c : Char} {cs rest' : List Char} {vs : List Value}
    (hblank : isBlank c = false) (hend : c ≠ ']') (h : items? fuel (c :: cs) = some (vs, rest')) :
  value? (fuel + 1) ('[' :: c :: cs) = some (.array vs, rest')
  := by
  have hskip : skipBlanks (c :: cs) = c :: cs := skipBlanks_cons hblank
  rw [value?, skipBlanks_cons rfl]
  simp [hskip, hend, h]

/-- An object is read from its first member on. -/
theorem value?_object {cs rest' : List Char} {ms : List (Option String × Value)}
    (h : members? fuel ('"' :: cs) = some (ms, rest')) :
  value? (fuel + 1) ('\x7b' :: '"' :: cs) = some (objectOf ms, rest')
  := by
  have hskip : skipBlanks ('"' :: cs) = '"' :: cs := skipBlanks_cons rfl
  rw [value?, skipBlanks_cons rfl]
  simp [hskip, h]

/-- A value that stands for itself is read back. -/
theorem readBack_of_plain (hv : Plain v) : ReadBack v := by
  induction hv with
  | null =>
    intro fuel rest hfuel _
    cases fuel with
    | zero => cases hfuel
    | succ fuel => rfl
  | bool b =>
    intro fuel rest hfuel _
    cases fuel with
    | zero => cases b <;> cases hfuel
    | succ fuel => cases b <;> rfl
  | number n =>
    intro fuel rest hfuel hrest
    rw [compactChars] at hfuel ⊢
    have hpos := List.length_pos_of_ne_nil (digitsOf_ne_nil n)
    cases fuel with
    | zero => omega
    | succ fuel => apply value?_digitsOf hrest
  | text s =>
    intro fuel rest hfuel _
    rw [compactChars] at hfuel ⊢
    cases fuel with
    | zero => cases hfuel
    | succ fuel => apply value?_textChars
  | @array items hitems ih =>
    intro fuel rest hfuel _
    cases items with
    | nil =>
      cases fuel with
      | zero => cases hfuel
      | succ fuel => rfl
    | cons v vs =>
      rw [compactChars, List.cons_append, List.length_cons, List.length_append] at hfuel
      obtain ⟨c, cs, heq, hblank, hend⟩ :=
        exists_compactChars_eq_cons (hitems v List.mem_cons_self)
      cases fuel with
      | zero => omega
      | succ fuel =>
        have hread := items?_compactItems fuel rest ih (by omega)
        rw [heq, List.cons_append, List.cons_append] at hread
        rw [compactChars, heq]
        apply value?_array hblank hend hread
  | @object members hmembers ih =>
    intro fuel rest hfuel _
    cases members with
    | nil =>
      cases fuel with
      | zero => cases hfuel
      | succ fuel => rfl
    | cons m ms =>
      rw [compactChars, List.cons_append, List.length_cons, List.length_append] at hfuel
      cases fuel with
      | zero => omega
      | succ fuel =>
        have hread := members?_compactMembers fuel rest ih (by omega)
        obtain ⟨name, v⟩ := m
        simp only [compactMember, textChars, List.cons_append] at hread
        rw [compactChars, compactMember, textChars, ← objectOf_map]
        apply value?_object hread

/-- A value that stands for itself is read back from its text. -/
theorem parse_compact (hv : Plain v) : parse (compact v) = some v := by
  have hread := readBack_of_plain hv (2 * (compactChars v).length + 2) [] (by omega) endsNumber_nil
  rw [List.append_nil] at hread
  rw [parse, compact, String.toList_ofList]
  simp only [hread, Option.bind_eq_bind, Option.bind_some]
  rfl

end RoutingFabric.Json
