import RoutingFabric.Proofs.Json.Text

/-!
# Texts that are taken apart

A number is told by its digits, a list of names without dots by the names with dots between them,
and the name of a pin by the name of its block, its port and its bit.
-/

namespace RoutingFabric.Text

/-! ### Numbers -/

/-- A number is told by its digits. -/
theorem digitsOf_injective {n m : Nat} (h : digitsOf n = digitsOf m) : n = m := by
  have hread := Json.number?_digitsOf (n := n) Json.endsNumber_nil
  rw [h, Json.number?_digitsOf Json.endsNumber_nil] at hread
  cases hread
  rfl

/-- The digits of a number are those of its text. -/
theorem toList_decimal (n : Nat) : (decimal n).toList = digitsOf n := String.toList_ofList

/-- A number is told by its text. -/
theorem decimal_inj {n m : Nat} : decimal n = decimal m ↔ n = m := by
  constructor
  · intro h
    apply digitsOf_injective
    rw [← toList_decimal, ← toList_decimal, h]
  · rintro rfl
    rfl

/-- The text of a number has no character but digits. -/
theorem not_mem_decimal {c : Char} (hc : isDigit c = false) (n : Nat) : c ∉ (decimal n).toList := by
  rw [toList_decimal]
  intro hmem
  rw [Json.isDigit_of_mem_digitsOf hmem] at hc
  cases hc

/-! ### Separators -/

/-- A text is taken apart at the last separator. -/
theorem append_cons_inj {α : Type} {c : α} {xs xs' ys ys' : List α} (hys : c ∉ ys)
    (hys' : c ∉ ys') :
  xs ++ c :: ys = xs' ++ c :: ys' ↔ xs = xs' ∧ ys = ys'
  := by
  constructor
  · intro h
    rcases List.append_eq_append_iff.mp h with ⟨zs, rfl, hzs⟩ | ⟨zs, rfl, hzs⟩
    · cases zs with
      | nil =>
        cases hzs
        simp
      | cons z zs =>
        cases hzs
        simp at hys
    · cases zs with
      | nil =>
        cases hzs
        simp
      | cons z zs =>
        cases hzs
        simp at hys'
  · rintro ⟨rfl, rfl⟩
    rfl

/-- Names without dots are told by the names with dots between them. -/
theorem intercalate_inj {names names' : List String} (hdots : ∀ name ∈ names, '.' ∉ name.toList)
    (hdots' : ∀ name ∈ names', '.' ∉ name.toList) (hne : names ≠ []) (hne' : names' ≠ []) :
  ".".intercalate names = ".".intercalate names' ↔ names = names'
  := by
  have hsplit : ∀ names : List String, (∀ name ∈ names, '.' ∉ name.toList) → names ≠ [] →
      (".".intercalate names).toList.splitOn '.' = names.map String.toList := by
    intro names hdots hne
    rw [String.toList_intercalate]
    apply List.splitOn_intercalate
    · simpa using hdots
    · simpa using hne
  constructor
  · intro h
    apply List.map_injective_iff.mpr (fun _ _ => String.toList_inj.mp)
    rw [← hsplit names hdots hne, h, hsplit names' hdots' hne']
  · rintro rfl
    rfl

/-- The name of a pin tells the name of its block, its port and its bit. -/
theorem pinText_inj {path path' port port' : String} {bit bit' : Nat} (hport : '.' ∉ port.toList)
    (hport' : '.' ∉ port'.toList) :
  path ++ "." ++ port ++ "[" ++ decimal bit ++ "]"
      = path' ++ "." ++ port' ++ "[" ++ decimal bit' ++ "]"
    ↔ path = path' ∧ port = port' ∧ bit = bit'
  := by
  have hchars : ∀ (path port : String) (bit : Nat),
      (path ++ "." ++ port ++ "[" ++ decimal bit ++ "]").toList
        = path.toList ++ '.' :: (port.toList ++ '[' :: ((decimal bit).toList ++ [']'])) := by
    intro path port bit
    simp
  have hbracket : ∀ bit : Nat, '[' ∉ (decimal bit).toList ++ [']'] := by
    intro bit
    have hdigits := not_mem_decimal (c := '[') (by decide) bit
    simp [hdigits]
  have hdot : ∀ (port : String) (bit : Nat), '.' ∉ port.toList →
      '.' ∉ port.toList ++ '[' :: ((decimal bit).toList ++ [']']) := by
    intro port bit hport
    have hdigits := not_mem_decimal (c := '.') (by decide) bit
    simp [hport, hdigits]
  rw [← String.toList_inj, hchars, hchars, append_cons_inj (hdot port bit hport)
    (hdot port' bit' hport'), append_cons_inj (hbracket bit) (hbracket bit'), String.toList_inj,
    String.toList_inj, List.append_left_inj, String.toList_inj, decimal_inj]

end RoutingFabric.Text
