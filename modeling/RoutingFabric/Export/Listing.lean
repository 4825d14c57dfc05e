/-!
# Listings

A listing gives each of a number of names a value, in the order of the names. A name that is
given a value again loses the one it had.
-/

namespace RoutingFabric.Export

/-- Values by name, in the order of the names. -/
abbrev Listing (α : Type) := List (String × α)

namespace Listing

variable {α : Type}

/-- The listing in which a name has a value. -/
def put (name : String) (a : α) : Listing α → Listing α
  | [] => [(name, a)]
  | (other, b) :: rest =>
    if name = other then (name, a) :: rest
    else if name < other then (name, a) :: (other, b) :: rest
    else (other, b) :: put name a rest

/-- The listing of names and values, of which the last counts where a name comes again. -/
def ofList (pairs : List (String × α)) : Listing α :=
  pairs.foldl (fun l (name, a) => put name a l) []

/-- A name has the value it was given last. -/
theorem lookup_put_self (name : String) (a : α) (l : Listing α) :
  (put name a l).lookup name = some a
  := by
  induction l with
  | nil => simp [put]
  | cons p rest ih =>
    obtain ⟨other, b⟩ := p
    unfold put
    split
    · simp
    · split
      · simp
      · next h _ =>
        have hb : (name == other) = false := by simpa using h
        simpa [List.lookup_cons, hb] using ih

/-- A name keeps its value where another is given one. -/
theorem lookup_put_of_ne {name other : String} (a : α) (l : Listing α) (h : other ≠ name) :
  (put name a l).lookup other = l.lookup other
  := by
  have hn : (other == name) = false := by simpa using h
  induction l with
  | nil => simp [put, List.lookup_cons, hn]
  | cons p rest ih =>
    obtain ⟨key, b⟩ := p
    unfold put
    split
    · next e => subst e; simp [List.lookup_cons, hn]
    · split
      · simp [List.lookup_cons, hn]
      · by_cases hk : other == key
        · simp [List.lookup_cons, hk]
        · simpa [List.lookup_cons, hk] using ih

end Listing

end RoutingFabric.Export
