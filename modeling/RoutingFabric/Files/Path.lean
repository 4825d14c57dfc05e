/-!
# Paths

A path names a file by the folders on the way to it, with a slash after each. It is absolute
when it starts with a slash.
-/

namespace RoutingFabric.Files

/-- The parts of a text between slashes. -/
def parts : List Char → List (List Char)
  | [] => [[]]
  | c :: rest =>
    if c = '/' then [] :: parts rest
    else
      match parts rest with
      | [] => [[c]]
      | part :: more => (c :: part) :: more

/-- Whether a path is absolute. -/
def isAbsolute (path : String) : Bool := path.toList.head? == some '/'

/-- Whether a path ends with a slash. -/
def endsWithSlash (path : String) : Bool := path.toList.getLast? == some '/'

/-- The names in a path. -/
def namesOf (path : String) : List String :=
  ((parts path.toList).filter (· ≠ [])).map String.ofList

/-- The path of a name in a folder. An absolute name stands for itself. -/
def join (folder name : String) : String :=
  if isAbsolute name || folder.isEmpty then name
  else if endsWithSlash folder then folder ++ name
  else folder ++ "/" ++ name

/-- A text has at least one part. -/
theorem parts_ne_nil (s : List Char) : parts s ≠ [] := by
  cases s with
  | nil => simp [parts]
  | cons c rest =>
    unfold parts
    split
    · simp
    · split <;> simp

end RoutingFabric.Files
