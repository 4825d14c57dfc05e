import Mathlib.Data.List.Basic
import RoutingFabric.Json.Reader
import RoutingFabric.Json.Writer

/-!
# Numbers and texts are read back

The digits of a number are read as that number wherever nothing follows that would make the number
another one. A text between quotes is read as that text, whatever characters it has and whatever
follows.
-/

namespace RoutingFabric.Json

variable {rest : List Char}

/-! ### Numbers -/

/-- No number goes on with the text that follows it. -/
def EndsNumber (rest : List Char) : Prop :=
  ∀ c ∈ rest.head?, Text.isDigit c = false ∧ c ≠ '.' ∧ c ≠ 'e' ∧ c ≠ 'E'

/-- Where nothing follows, a number has ended. -/
theorem endsNumber_nil : EndsNumber [] := by
  intro c hc
  cases hc

/-- A character that stands between values ends a number. -/
theorem endsNumber_cons {c : Char} (hc : c = ',' ∨ c = ']' ∨ c = '\x7d') :
  EndsNumber (c :: rest)
  := by
  intro c' hc'
  obtain rfl := Option.some.inj hc'
  rcases hc with rfl | rfl | rfl <;> decide

/-- A number is written in digits. -/
theorem isDigit_of_mem_digitsOf {n : Nat} {c : Char} (h : c ∈ Text.digitsOf n) :
  Text.isDigit c = true
  := Nat.isDigit_of_mem_toDigits (by decide) (by decide) h

/-- Every number has a digit. -/
theorem digitsOf_ne_nil (n : Nat) : Text.digitsOf n ≠ [] := Nat.toDigits_ne_nil

/-- What the text of a number starts with is a digit. -/
theorem isDigit_of_digitsOf_append {n : Nat} {c : Char} {cs : List Char}
    (h : Text.digitsOf n ++ rest = c :: cs) :
  Text.isDigit c = true
  := by
  have hhead := congrArg List.head? h
  rw [List.head?_append_of_ne_nil _ (digitsOf_ne_nil n)] at hhead
  apply isDigit_of_mem_digitsOf (List.mem_of_mem_head? hhead)

/-- Only the number zero starts with a zero. -/
theorem head?_digitsOf_ne {n : Nat} (hn : 0 < n) : (Text.digitsOf n).head? ≠ some '0' := by
  induction n using Nat.strongRecOn with
  | ind n ih =>
    rw [Text.digitsOf]
    rcases Nat.lt_or_ge n 10 with hlt | hge
    · have hdigit : ∀ n < 10, 0 < n → [n.digitChar].head? ≠ some '0' := by decide
      rw [Nat.toDigits_of_lt_base hlt]
      apply hdigit n hlt hn
    · rw [Nat.toDigits_of_base_le (by decide) hge,
        List.head?_append_of_ne_nil _ Nat.toDigits_ne_nil]
      apply ih <;> omega

/-- The digits of a number are the digits in front of what follows. -/
theorem digits?_digitsOf {n : Nat} (hrest : EndsNumber rest) :
  digits? (Text.digitsOf n ++ rest) = some (Text.digitsOf n, rest)
  := by
  have htake : rest.takeWhile Text.isDigit = [] := by
    cases rest with
    | nil => rfl
    | cons c rest => rw [List.takeWhile_cons, (hrest c rfl).1, if_neg Bool.false_ne_true]
  have hdrop : rest.dropWhile Text.isDigit = rest := by
    cases rest with
    | nil => rfl
    | cons c rest => rw [List.dropWhile_cons, (hrest c rfl).1, if_neg Bool.false_ne_true]
  have hdigits : ∀ c ∈ Text.digitsOf n, Text.isDigit c = true := fun _ => isDigit_of_mem_digitsOf
  rw [digits?, List.takeWhile_append_of_pos hdigits, List.dropWhile_append_of_pos hdigits, htake,
    hdrop, List.append_nil]
  split
  case h_1 hnil => cases digitsOf_ne_nil n hnil
  case h_2 => rfl

/-- The digits of a number are the whole part of the number in front of what follows. -/
theorem whole?_digitsOf {n : Nat} (hrest : EndsNumber rest) :
  whole? (Text.digitsOf n ++ rest) = some (Text.digitsOf n, rest)
  := by
  rw [whole?, digits?_digitsOf hrest]
  dsimp only [Option.bind_eq_bind, Option.bind_some]
  split
  case h_1 c ds hzero =>
    rcases Nat.eq_zero_or_pos n with rfl | hn
    · cases hzero
    · cases head?_digitsOf_ne hn (by rw [hzero]; rfl)
  case h_2 => rfl

/-- A number is read back from its digits, in front of what ends it. -/
theorem number?_digitsOf {n : Nat} (hrest : EndsNumber rest) :
  number? (Text.digitsOf n ++ rest) = some (.number n, rest)
  := by
  have hminus : ∀ tail, Text.digitsOf n ++ rest = '-' :: tail → False := by
    intro tail h
    cases isDigit_of_digitsOf_append h
  have hfraction : fraction? rest = some ([], rest) := by
    rw [fraction?.eq_def]
    split
    case h_1 => cases (hrest '.' rfl).2.1 rfl
    case h_2 => rfl
  have hexponent : exponent? rest = some ([], rest) := by
    rw [exponent?.eq_def]
    split
    case h_1 c tail =>
      obtain ⟨-, -, he, hE⟩ := hrest c rfl
      rw [if_neg]
      simp [he, hE]
    case h_2 => rfl
  -- by `hminus` the digits do not start with a sign
  rw [number?.eq_def]
  simp only [whole?_digitsOf hrest, hfraction, hexponent, Option.bind_eq_bind,
    Option.bind_some, List.isEmpty_nil, Bool.and_self, if_true]
  congr 3
  apply Nat.ofDigitChars_toDigits <;> decide

/-! ### Texts -/

/-- A control character is read back from its code. -/
theorem hexValue4?_hexDigit {n : Nat} (hn : n < 32) :
  hexValue4? '0' '0' (Text.hexDigit (n / 16)) (Text.hexDigit (n % 16)) = some n
  := by
  decide +revert

/-- A character that is escaped by a letter is read as its code. -/
theorem units?_letter {letter : Char} {u : Nat} (h : letterEscape? letter = some u) :
  units? ('\\' :: letter :: rest) = (units? rest).map fun p => (u :: p.1, p.2)
  := by
  have hletter : letter ≠ 'u' := by
    rintro rfl
    cases h
  rw [units?, h]
  · cases units? rest <;> rfl
  · intro _ _ _ _ _ hu
    cases hletter hu

/-- A character that is escaped by its code is read as its code. -/
theorem units?_code {a b c d : Char} {u : Nat} (h : hexValue4? a b c d = some u) :
  units? ('\\' :: 'u' :: a :: b :: c :: d :: rest) = (units? rest).map fun p => (u :: p.1, p.2)
  := by
  simp only [units?, h, Option.bind_eq_bind, Option.bind_some]
  cases units? rest <;> rfl

/-- Any other character is read as its code. -/
theorem units?_plain {c : Char} (hcontrol : 32 ≤ c.toNat) (hquote : c ≠ '"')
    (hslash : c ≠ '\\') :
  units? (c :: rest) = (units? rest).map fun p => (c.toNat :: p.1, p.2)
  := by
  have hlt : ¬ c.toNat < 32 := Nat.not_lt.mpr hcontrol
  rw [units?, if_neg (by simp [hlt, hslash])]
  · cases units? rest <;> rfl
  · apply hquote
  · intro _ _ _ _ _ hslash'
    cases hslash hslash'
  · intro _ _ hslash'
    cases hslash hslash'

/-- A character that stands in a text, escaped or not, is read as its code. -/
theorem units?_escaped (c : Char) (rest : List Char) :
  units? (escaped c ++ rest) = (units? rest).map fun p => (c.toNat :: p.1, p.2)
  := by
  unfold escaped
  split
  case isTrue h =>
    subst h
    apply units?_letter rfl
  split
  case isTrue h =>
    subst h
    apply units?_letter rfl
  split
  case isTrue h =>
    rw [h]
    apply units?_letter rfl
  split
  case isTrue h =>
    rw [h]
    apply units?_letter rfl
  split
  case isTrue h =>
    subst h
    apply units?_letter rfl
  split
  case isTrue h =>
    subst h
    apply units?_letter rfl
  split
  case isTrue h =>
    subst h
    apply units?_letter rfl
  split
  case isTrue h => apply units?_code (hexValue4?_hexDigit h)
  case isFalse hquote hslash _ _ _ _ _ h => apply units?_plain (Nat.le_of_not_lt h) hquote hslash

/-- A text is read back up to its closing quote. -/
theorem units?_flatMap (cs rest : List Char) :
  units? (cs.flatMap escaped ++ '"' :: rest) = some (cs.map Char.toNat, rest)
  := by
  induction cs with
  | nil => rfl
  | cons c cs ih =>
    rw [List.flatMap_cons, List.append_assoc, units?_escaped, ih]
    rfl

/-- No character is a half of another. -/
theorem not_isLow_toNat (c : Char) : isLow c.toNat = false ∧ isHigh c.toNat = false := by
  have hvalid : Nat.isValidChar c.toNat := c.valid
  rw [Nat.isValidChar] at hvalid
  have hlow : ¬ (0xdc00 ≤ c.toNat ∧ c.toNat < 0xe000) := by omega
  have hhigh : ¬ (0xd800 ≤ c.toNat ∧ c.toNat < 0xdc00) := by omega
  rw [isLow, isHigh, ← Bool.decide_and, ← Bool.decide_and, decide_eq_false hlow,
    decide_eq_false hhigh]
  exact ⟨rfl, rfl⟩

/-- The codes of characters are joined to these characters. -/
theorem joinUnits_map_toNat (cs : List Char) : joinUnits (cs.map Char.toNat) = some cs := by
  induction cs with
  | nil => rfl
  | cons c cs ih =>
    obtain ⟨hlow, hhigh⟩ := not_isLow_toNat c
    rw [List.map_cons, joinUnits.eq_def]
    simp only [hlow, hhigh, ih, Char.ofNat_toNat]
    rfl

/-- The codes of the characters of a text stand for the text. -/
theorem textOf_map_toNat (s : String) : textOf (s.toList.map Char.toNat) = some s := by
  rw [textOf, joinUnits_map_toNat, Option.map_some, String.ofList_toList]

end RoutingFabric.Json
