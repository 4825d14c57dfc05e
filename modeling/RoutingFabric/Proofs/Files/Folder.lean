import Mathlib.Data.List.Basic
import RoutingFabric.Files.Disk

/-!
# What is written to a folder is read back

A file is put at a place that is no folder. No path passes such a place on its way, so that every
path still leads where it led, and the path that was written to leads to the new file.
-/

namespace RoutingFabric.Files.Folder

variable {f f' : Folder} {place start stop : Place} {content : Content} {names : List String}

/-- What lies at the other places is as it was when a file is put at a place. -/
theorem at?_putFile_of_ne (h : start ≠ place) :
  (f.putFile place content).at? start = f.at? start
  := by
  have hlookup : (f.files.filter (·.1 ≠ place) ++ [(place, content)]).lookup start
      = f.files.lookup start := by
    have hplace : (start == place) = false := by simpa using h
    induction f.files with
    | nil => simp [List.lookup_cons, hplace]
    | cons p files ih =>
      obtain ⟨other, c⟩ := p
      by_cases hother : other = place
      · simpa [hother, List.lookup_cons, hplace] using ih
      · rw [List.filter_cons_of_pos (by simpa using hother), List.cons_append, List.lookup_cons,
          List.lookup_cons, ih]
  unfold putFile at?
  rw [hlookup]

/-- Where names lead to a place, they start from a folder or there are none. -/
theorem at?_of_follow {name : String} (h : f.follow start (name :: names) = .ok stop) :
  f.at? start = some .folder
  := by
  rw [follow] at h
  split at h
  case h_1 => cases h
  case h_2 => cases h
  case h_3 hfolder => exact hfolder

/-- Names that lead to a place still lead there when a file is put where no folder was. -/
theorem follow_putFile (hplace : f.at? place ≠ some .folder)
    (h : f.follow start names = .ok stop) :
  (f.putFile place content).follow start names = .ok stop
  := by
  induction names generalizing start with
  | nil => exact h
  | cons name names ih =>
    have hfolder := at?_of_follow h
    have hne : start ≠ place := by
      rintro rfl
      exact hplace hfolder
    rw [follow, at?_putFile_of_ne hne, hfolder]
    rw [follow, hfolder] at h
    dsimp only at h ⊢
    -- by the name, the way stays, goes back or goes on
    split_ifs at h ⊢
    · apply ih h
    · apply ih h
    · apply ih h

/-- A name of a place in a folder. -/
structure Ordinary (name : String) : Prop where
  ne_dot : name ≠ "."
  ne_dots : name ≠ ".."
  length_le : ¬ nameLimit < name.utf8ByteSize

/-- An ordinary name leads from a folder to the place it names in it. -/
theorem follow_append {name : String} (hname : Ordinary name)
    (h : f.follow start names = .ok stop) (hfolder : f.at? stop = some .folder) :
  f.follow start (names ++ [name]) = .ok (stop ++ [name])
  := by
  induction names generalizing start with
  | nil =>
    obtain rfl : start = stop := Except.ok.inj h
    rw [List.nil_append, follow, hfolder]
    dsimp only
    rw [if_neg hname.ne_dot, if_neg hname.ne_dots, if_neg hname.length_le, follow]
  | cons first names ih =>
    have hstart := at?_of_follow h
    rw [List.cons_append, follow, hstart]
    rw [follow, hstart] at h
    dsimp only at h ⊢
    split_ifs at h ⊢
    · apply ih h
    · apply ih h
    · apply ih h

/-- A path may be written to: all names in it but the last lead to a folder, in which the last one
names no other folder. -/
structure Open (f : Folder) (path : String) (names : List String) (parent : Place)
    (name : String) : Prop where
  names_eq : namesIn path = .ok (names ++ [name])
  follow_eq : f.follow [] names = .ok parent
  parent_folder : f.at? parent = some .folder
  slash_eq : endsWithSlash path = false
  name_ordinary : Ordinary name
  not_folder : f.at? (parent ++ [name]) ≠ some .folder

/-- The place that may be written at a path is named by the last name in it. -/
theorem exists_open_of_target {path : String} (h : f.target path = .ok place) :
  ∃ names parent name, Open f path names parent name ∧ place = parent ++ [name]
  := by
  rw [target] at h
  cases hnames : namesIn path with
  | error p => simp [hnames, bind, Except.bind] at h
  | ok names =>
    cases hfollow : f.follow [] names.dropLast with
    | error p => simp [hnames, hfollow, bind, Except.bind] at h
    | ok parent =>
      simp only [hnames, hfollow, bind, Except.bind] at h
      split at h
      case h_1 => cases h
      case h_2 => cases h
      case h_3 => cases h
      case h_4 name hfolder hlast =>
        split_ifs at h with hname hlength
        split at h
        case h_1 => cases h
        case h_2 hfree =>
          simp only [Bool.or_eq_true, decide_eq_true_eq, not_or, Bool.not_eq_true] at hname
          obtain ⟨⟨hslash, hdot⟩, hdots⟩ := hname
          use names.dropLast, parent, name
          have hnames' : namesIn path = .ok (names.dropLast ++ [name]) := by
            rw [List.dropLast_append_getLast? name hlast, hnames]
          exact ⟨⟨hnames', hfollow, hfolder, hslash, ⟨hdot, hdots, hlength⟩, hfree⟩,
            (Except.ok.inj h).symm⟩

/-- No folder is where a path may be written to. -/
theorem at?_ne_of_target {path : String} (h : f.target path = .ok place) :
  f.at? place ≠ some .folder
  := by
  obtain ⟨names, parent, name, hopen, rfl⟩ := exists_open_of_target h
  exact hopen.not_folder

/-- A path may be written to at the place that is named by the last name in it. -/
theorem Open.target_eq {path name : String} (h : Open f path names start name) :
  f.target path = .ok (start ++ [name])
  := by
  have hname := h.name_ordinary
  simp only [target, h.names_eq, bind, Except.bind, List.dropLast_concat, h.follow_eq,
    List.getLast?_concat, h.parent_folder, h.slash_eq, hname.ne_dot, hname.ne_dots,
    hname.length_le, Bool.or_self, decide_false, Bool.false_eq_true, if_false]
  split
  · rename_i hfolder
    cases h.not_folder hfolder
  · rfl

/-- A path that may be written to may still be when a file is put where no folder was. -/
theorem target_putFile {path : String} {other : Place} (h : f.target path = .ok place)
    (hother : f.at? other ≠ some .folder) :
  (f.putFile other content).target path = .ok place
  := by
  obtain ⟨names, parent, name, hopen, rfl⟩ := exists_open_of_target h
  apply Open.target_eq
  constructor
  case names_eq => exact hopen.names_eq
  case follow_eq => apply follow_putFile hother hopen.follow_eq
  case parent_folder =>
    rw [at?_putFile_of_ne, hopen.parent_folder]
    rintro rfl
    exact hother hopen.parent_folder
  case slash_eq => exact hopen.slash_eq
  case name_ordinary => exact hopen.name_ordinary
  case not_folder =>
    by_cases heq : parent ++ [name] = other
    · rw [heq, at?_putFile_self]
      simp
    · rw [at?_putFile_of_ne heq]
      exact hopen.not_folder

/-- What lies where a path may be written is read from the path. -/
theorem read_of_target {path : String} (h : f.target path = .ok place)
    (hfile : f.at? place = some (.file content)) :
  f.read path = .ok (.file content)
  := by
  obtain ⟨names, parent, name, hopen, rfl⟩ := exists_open_of_target h
  have hfollow := follow_append hopen.name_ordinary hopen.follow_eq hopen.parent_folder
  simp only [read, hopen.names_eq, hfollow, hfile, hopen.slash_eq, bind, Except.bind]
  rfl

/-- What is put where a path may be written is read from the path. -/
theorem read_putFile {path : String} (h : f.target path = .ok place) :
  (f.putFile place content).read path = .ok (.file content)
  := by
  apply read_of_target
  · apply target_putFile h (at?_ne_of_target h)
  · apply at?_putFile_self

/-! ### The folder as a disk -/

/-- Reading from a folder leaves it as it is. -/
theorem run_read (f : Folder) (path : String) : (disk.read path).run f = (f.read path, f) := rfl

/-- Writing where a path may be written puts a file there. -/
theorem run_write {path : String} (h : f.target path = .ok place) :
  (disk.write path content).run f = (.ok (), f.putFile place content)
  := by
  have hwrite : f.write path content = .ok (f.putFile place content) := by
    rw [write, h]
    rfl
  simp only [disk, StateT.run_bind, StateT.run_get, pure_bind, hwrite]
  rfl

end RoutingFabric.Files.Folder
