import RoutingFabric.Export.Listing
import RoutingFabric.Files.Disk
import RoutingFabric.Json.Writer

/-!
# Exports

Results of a run are exported item by item. A user selects the items by their names, or all of
them. Selected items either go to a file each, or into one file that holds them all as a JSON
object.
-/

namespace RoutingFabric.Export

open Files

/-- The names a user selects. -/
structure Selection where
  names : List String := []
  deriving DecidableEq

namespace Selection

/-- The name that stands for all items. -/
def everything : String := ":all"

/-- Whether an item of a name is selected. -/
def selects (s : Selection) (name : String) : Bool :=
  s.names.contains everything || s.names.contains name

end Selection

/-! ### A file each -/

/-- Export to a file for each item. Kept is the number of files written. -/
structure Separate where
  selection : Selection
  folder : String
  ending : String
  written : Nat := 0
  deriving DecidableEq

namespace Separate

/-- The path of the file of an item. -/
def path (e : Separate) (name : String) : String := join e.folder (name ++ e.ending)

/-- The files of the selected items, in order. -/
def filesOf (e : Separate) (items : List (String × String)) : List (String × String) :=
  (items.filter fun (name, _) => e.selection.selects name).map fun (name, text) =>
    (e.path name, text)

/-- An item is written to its file, if it is selected. -/
def offer {m : Type → Type} [Monad m] (disk : Disk m) (e : Separate) (name text : String) :
    m (Separate × Except FileProblem Unit) := do
  if e.selection.selects name then
    match ← disk.write (e.path name) (.plain text) with
    | .ok () => return ({ e with written := e.written + 1 }, .ok ())
    | .error p => return (e, .error p)
  else return (e, .ok ())

end Separate

/-! ### One file -/

/-- Export to one file. -/
structure Collected where
  selection : Selection
  path : String
  items : Listing Json.Value := []

namespace Collected

/-- An item is added, if it is selected. -/
def offer (e : Collected) (name : String) (item : Json.Value) : Collected :=
  if e.selection.selects name then { e with items := e.items.put name item } else e

/-- The file of the items, if there are any. -/
def file? (e : Collected) : Option (String × String) :=
  if e.items.isEmpty then none else some (e.path, Json.pretty (.object e.items))

/-- The items are written to their file, if there are any. -/
def flush {m : Type → Type} [Monad m] (disk : Disk m) (e : Collected) :
    m (Except FileProblem Unit) :=
  disk.writeAll e.file?.toList

end Collected

end RoutingFabric.Export
