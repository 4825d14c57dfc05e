import RoutingFabric.Files.Folder

/-!
# Disks

A disk is what a program needs of the files around it: to look at what a path leads to, and to
write a text to a path. It may be a folder kept as a value, or the files of the machine.
-/

namespace RoutingFabric.Files

/-- A disk that is used by actions of a monad. -/
structure Disk (m : Type → Type) where
  read : String → m (Except FileProblem Entry)
  write : String → Content → m (Except FileProblem Unit)

/-- A disk that is a folder. A failed write leaves the folder as it was. -/
def Folder.disk : Disk (StateM Folder) where
  read path := do return (← get).read path
  write path content := do
    match (← get).write path content with
    | .ok f =>
      set f
      return .ok ()
    | .error e => return .error e

namespace Disk

variable {m : Type → Type} [Monad m]

/-- A text is written to a path each, up to the first that fails. -/
def writeAll (disk : Disk m) : List (String × String) → m (Except FileProblem Unit)
  | [] => return .ok ()
  | (path, text) :: rest => do
    match ← disk.write path (.plain text) with
    | .ok () => writeAll disk rest
    | .error e => return .error e

end Disk

end RoutingFabric.Files
