import RoutingFabric.Files.Path
import RoutingFabric.Outcome

/-!
# Folders

A folder with all that lies below it: the folders, and the files with their contents. Paths are
taken from the folder itself, and nothing outside of it is known. A place in the folder is the
list of the names on the way to it.
-/

namespace RoutingFabric.Files

/-- Content of a file: a text, a text in compressed form, or neither. -/
inductive Content where
  | plain (text : String)
  | compressed (text : String)
  | binary
  deriving DecidableEq

/-- What a path may lead to. -/
inductive Entry where
  | folder
  | file (content : Content)
  deriving DecidableEq

/-- A place below a folder, as the names on the way to it. -/
abbrev Place := List String

/-- A folder. -/
structure Folder where
  folders : List Place := []
  files : List (Place × Content) := []
  deriving DecidableEq

namespace Folder

/-- The folder with nothing in it. -/
def empty : Folder := {}

/-- What lies at a place, if anything. -/
def at? (f : Folder) (place : Place) : Option Entry :=
  match f.files.lookup place with
  | some content => some (.file content)
  | none => if place = [] ∨ place ∈ f.folders then some .folder else none

/-- The folder with a folder more, and all those on the way to it. -/
def addFolder (f : Folder) (place : Place) : Folder :=
  let way := ((List.range place.length).map fun n => place.take (n + 1)).filter
    fun p => !f.folders.contains p
  { f with folders := f.folders ++ way }

/-- The folder with a file at a place, instead of the one there was. -/
def putFile (f : Folder) (place : Place) (content : Content) : Folder :=
  { f with files := f.files.filter (·.1 ≠ place) ++ [(place, content)] }

/-! ### Paths -/

/-- The largest number of bytes of a name. -/
def nameLimit : Nat := 255

/-- The largest number of bytes of a path. -/
def pathLimit : Nat := 4095

/-- The place that names lead to from another place, at which a folder has to be wherever
there is a name to follow. -/
def follow (f : Folder) : Place → List String → Except FileProblem Place
  | place, [] => .ok place
  | place, name :: rest =>
    match f.at? place with
    | none => .error .notFound
    | some (.file _) => .error .notDirectory
    | some .folder =>
      if name = "." then follow f place rest
      else if name = ".." then
        if place = [] then .error .notFound else follow f place.dropLast rest
      else if nameLimit < name.utf8ByteSize then .error .nameTooLong
      else follow f (place ++ [name]) rest

/-- The names in a path from the folder. -/
def namesIn (path : String) : Except FileProblem (List String) :=
  if path.toList.contains (Char.ofNat 0) then .error .badName
  else if pathLimit < path.utf8ByteSize then .error .nameTooLong
  else if path.isEmpty || isAbsolute path then .error .notFound
  else .ok (namesOf path)

/-- What a path leads to. -/
def read (f : Folder) (path : String) : Except FileProblem Entry := do
  let place ← f.follow [] (← namesIn path)
  match f.at? place with
  | none => .error .notFound
  | some (.file content) =>
    if endsWithSlash path then .error .notDirectory else .ok (.file content)
  | some .folder => .ok .folder

/-- The place of the file that may be written at a path. -/
def target (f : Folder) (path : String) : Except FileProblem Place := do
  let names ← namesIn path
  let parent ← f.follow [] names.dropLast
  match f.at? parent, names.getLast? with
  | none, _ => .error .notFound
  | some (.file _), _ => .error .notDirectory
  | some .folder, none => .error .isDirectory
  | some .folder, some name =>
    if endsWithSlash path || name = "." || name = ".." then .error .isDirectory
    else if nameLimit < name.utf8ByteSize then .error .nameTooLong
    else
      match f.at? (parent ++ [name]) with
      | some .folder => .error .isDirectory
      | _ => .ok (parent ++ [name])

/-- The folder after a text is written to a path. -/
def write (f : Folder) (path : String) (content : Content) : Except FileProblem Folder := do
  return f.putFile (← f.target path) content

/-- A pair put at the end of a list without its key is found by the key. -/
theorem lookup_filter_append (place : Place) (content : Content) (l : List (Place × Content)) :
  (l.filter (·.1 ≠ place) ++ [(place, content)]).lookup place = some content
  := by
  induction l with
  | nil => simp
  | cons p rest ih =>
    obtain ⟨other, c⟩ := p
    by_cases hp : other = place
    · simpa [hp] using ih
    · have hb : (place == other) = false := by simpa using fun h => hp h.symm
      simpa [hp, List.lookup_cons, hb] using ih

/-- A file that is put at a place is found there. -/
theorem at?_putFile_self (f : Folder) (place : Place) (content : Content) :
  (f.putFile place content).at? place = some (.file content)
  := by
  have h := lookup_filter_append place content f.files
  unfold putFile at?
  rw [h]

end Folder

end RoutingFabric.Files
