import RoutingFabric.Proofs.Files.Folder

/-!
# Where files are written

The place that a path leads to is told by the names in it, whatever lies in the folder. So when a
text is written to each path of a list, a path is left with the last text of those whose paths lead
to the same place, and each keeps its own if the places are distinct.
-/

namespace RoutingFabric.Files

/-- The place that a name leads to from a place. -/
def placeAfter (place : Place) (name : String) : Place :=
  if name = "." then place else if name = ".." then place.dropLast else place ++ [name]

/-- The place that a path leads to, if it leads anywhere. -/
def placeOf (path : String) : Place := (namesOf path).foldl placeAfter []

/-- The last file of a list whose path leads to a place. -/
def lastAt (files : List (String × String)) (place : Place) : Option (String × String) :=
  files.reverse.find? fun x => placeOf x.1 = place

/-! ### Names in a folder -/

/-- The parts of texts with a slash between them are those of each. -/
theorem parts_append_slash (s t : List Char) : parts (s ++ '/' :: t) = parts s ++ parts t := by
  induction s with
  | nil => simp [parts]
  | cons c s ih =>
    rw [List.cons_append, parts, parts]
    split
    · rw [ih, List.cons_append]
    · obtain ⟨part, more, hparts⟩ := List.exists_cons_of_ne_nil (parts_ne_nil s)
      rw [ih, hparts, List.cons_append, List.cons_append]

/-- A text without slashes has no parts but itself. -/
theorem parts_of_not_mem {s : List Char} (h : '/' ∉ s) : parts s = [s] := by
  induction s with
  | nil => rfl
  | cons c s ih =>
    rw [List.mem_cons, not_or] at h
    rw [parts, if_neg (Ne.symm h.1), ih h.2]

/-- A name of a file in a folder. -/
structure Plain (name : String) : Prop where
  ne_empty : name ≠ ""
  ne_dot : name ≠ "."
  ne_dots : name ≠ ".."
  slashless : '/' ∉ name.toList

variable {folder name : String}

/-- The names in the path of a file in a folder are those in the path of the folder and that of the
file. -/
theorem namesOf_join (h : Plain name) : namesOf (join folder name) = namesOf folder ++ [name] := by
  have hname : ((parts name.toList).filter (· ≠ [])).map String.ofList = [name] := by
    have hne : name.toList ≠ [] := by simpa using h.ne_empty
    rw [parts_of_not_mem h.slashless]
    simp [hne]
  have hrelative : isAbsolute name = false := by
    rw [isAbsolute, beq_eq_false_iff_ne]
    intro hfirst
    apply h.slashless (List.mem_of_head? hfirst)
  rw [join, hrelative, Bool.false_or]
  split
  · rename_i hempty
    rw [String.isEmpty_iff.mp hempty]
    apply hname
  split
  · rename_i hslash
    rw [endsWithSlash, beq_iff_eq] at hslash
    obtain ⟨s, hs⟩ := List.getLast?_eq_some_iff.mp hslash
    have hfolder : namesOf folder = ((parts s).filter (· ≠ [])).map String.ofList := by
      rw [namesOf, hs, parts_append_slash]
      simp [parts]
    rw [hfolder, namesOf, String.toList_append, hs, List.append_assoc, List.singleton_append,
      parts_append_slash, List.filter_append, List.map_append, hname]
  · have hchars : (folder ++ "/" ++ name).toList = folder.toList ++ '/' :: name.toList := by simp
    rw [namesOf, hchars, parts_append_slash, List.filter_append, List.map_append, hname, namesOf]

/-- The place of a file in a folder is that of the folder and the name of the file. -/
theorem placeOf_join (h : Plain name) : placeOf (join folder name) = placeOf folder ++ [name] := by
  rw [placeOf, namesOf_join h, List.foldl_append, List.foldl_cons, List.foldl_nil, placeAfter,
    if_neg h.ne_dot, if_neg h.ne_dots, placeOf]

/-! ### The last file of a list -/

variable {files : List (String × String)} {place : Place}

/-- The last file of a list is among the others, or else it is the first. -/
theorem lastAt_cons (x : String × String) :
  lastAt (x :: files) place
    = (lastAt files place).or (if placeOf x.1 = place then some x else none)
  := by
  rw [lastAt, List.reverse_cons, List.find?_append, List.find?_singleton]
  simp only [decide_eq_true_eq, lastAt]

/-- The last file of two lists is that of the second, or else that of the first. -/
theorem lastAt_append (more : List (String × String)) :
  lastAt (files ++ more) place = (lastAt more place).or (lastAt files place)
  := by rw [lastAt, List.reverse_append, List.find?_append, lastAt, lastAt]

/-- Where a file of a list leads, there is a last one. -/
theorem exists_lastAt {x : String × String} (hx : x ∈ files) :
  ∃ y, lastAt files (placeOf x.1) = some y
  := by
  apply Option.isSome_iff_exists.mp
  rw [lastAt, List.find?_isSome]
  exact ⟨x, List.mem_reverse.mpr hx, by simp⟩

namespace Folder

variable {f f' : Folder} {start stop : Place} {names : List String} {path : String}

/-! ### One file -/

/-- Names that lead anywhere lead to the place that they tell. -/
theorem eq_foldl_of_follow (h : f.follow start names = .ok stop) :
  stop = names.foldl placeAfter start
  := by
  induction names generalizing start with
  | nil => apply (Except.ok.inj h).symm
  | cons name names ih =>
    have hfolder := at?_of_follow h
    rw [follow, hfolder] at h
    dsimp only at h
    rw [List.foldl_cons, placeAfter]
    split_ifs at h ⊢
    · apply ih h
    · apply ih h
    · apply ih h

/-- A path that may be written to leads to the place that it tells. -/
theorem eq_placeOf_of_target (h : f.target path = .ok place) : place = placeOf path := by
  obtain ⟨names, parent, name, hopen, rfl⟩ := exists_open_of_target h
  have hnames : namesOf path = names ++ [name] := by
    have hnames := hopen.names_eq
    rw [namesIn] at hnames
    split_ifs at hnames
    apply Except.ok.inj hnames
  rw [placeOf, hnames, List.foldl_append, ← eq_foldl_of_follow hopen.follow_eq, List.foldl_cons,
    List.foldl_nil, placeAfter, if_neg hopen.name_ordinary.ne_dot,
    if_neg hopen.name_ordinary.ne_dots]

/-- What is written to a path is put at the place that the path tells. -/
theorem exists_of_run_write {content : Content}
    (h : (disk.write path content).run f = (.ok (), f')) :
  f.target path = .ok (placeOf path) ∧ f' = f.putFile (placeOf path) content
  := by
  cases htarget : f.target path with
  | error p =>
    have hwrite : f.write path content = .error p := by
      rw [write, htarget]
      rfl
    simp only [disk, StateT.run_bind, StateT.run_get, pure_bind, hwrite] at h
    cases h
  | ok place =>
    rw [← eq_placeOf_of_target htarget]
    rw [run_write htarget] at h
    cases h
    exact ⟨rfl, rfl⟩

/-! ### Several files -/

/-- A text has been written to each path of a list: a place has the last one whose path leads there.
-/
structure Written (f : Folder) (files : List (String × String)) (f' : Folder) : Prop where
  kept : ∀ path place, f.target path = .ok place → f'.target path = .ok place
  targets : ∀ x ∈ files, f'.target x.1 = .ok (placeOf x.1)
  left : ∀ place, f'.at? place
    = ((lastAt files place).map fun x => Entry.file (.plain x.2)).or (f.at? place)

/-- Texts are written to the paths of a list one after another. -/
theorem written_of_run (h : (disk.writeAll files).run f = (.ok (), f')) : Written f files f' := by
  induction files generalizing f with
  | nil =>
    cases h
    constructor
    case kept => exact fun _ _ h => h
    case targets => simp
    case left => simp [lastAt]
  | cons x files ih =>
    obtain ⟨path, text⟩ := x
    rw [Disk.writeAll, StateT.run_bind] at h
    cases hfirst : (disk.write path (.plain text)).run f with
    | mk result f₁ =>
      rw [hfirst] at h
      cases result with
      | error p => cases h
      | ok =>
        obtain ⟨htarget, rfl⟩ := exists_of_run_write hfirst
        have hfree := at?_ne_of_target htarget
        have hrest := ih h
        constructor
        case kept =>
          intro other place hplace
          apply hrest.kept other place (target_putFile hplace hfree)
        case targets =>
          intro y hy
          rcases List.mem_cons.mp hy with rfl | hy
          · apply hrest.kept path _ (target_putFile htarget hfree)
          · apply hrest.targets y hy
        case left =>
          intro place
          rw [hrest.left, lastAt_cons]
          by_cases hplace : placeOf path = place
          · rw [if_pos hplace, ← hplace, at?_putFile_self]
            cases lastAt files (placeOf path) <;> rfl
          · rw [if_neg hplace, at?_putFile_of_ne (Ne.symm hplace), Option.or_none]

/-- A path of the list is left with the last text of those whose paths lead to the same place. -/
theorem Written.exists_read (h : Written f files f') {x : String × String} (hx : x ∈ files) :
  ∃ y, lastAt files (placeOf x.1) = some y ∧ f'.read x.1 = .ok (.file (.plain y.2))
  := by
  obtain ⟨y, hy⟩ := exists_lastAt hx
  refine ⟨y, hy, read_of_target (h.targets x hx) ?_⟩
  rw [h.left, hy]
  rfl

end Folder

end RoutingFabric.Files
