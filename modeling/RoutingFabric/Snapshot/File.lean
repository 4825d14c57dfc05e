import RoutingFabric.Files.Disk
import RoutingFabric.Snapshot.Reader
import RoutingFabric.Snapshot.Writer

/-!
# Snapshot files

A snapshot is kept in a file in compressed form, unless it is asked for as a plain text. A file
of the one form is never taken for the other.
-/

namespace RoutingFabric.Snapshot

open Files

/-- Form of a snapshot in a file. -/
inductive Form where
  | raw
  | compressed
  deriving DecidableEq

/-- The content of a file that holds a text in a form. -/
def Form.content (form : Form) (text : String) : Content :=
  match form with
  | .raw => .plain text
  | .compressed => .compressed text

/-- The text that a file holds in a form, if it holds one. -/
def Form.text? : Form → Content → Option String
  | .raw, .plain text => some text
  | .compressed, .compressed text => some text
  | _, _ => none

/-- A text put into a file in a form is read back in that form. -/
@[simp] theorem Form.text?_content (form : Form) (text : String) :
  form.text? (form.content text) = some text
  := by
  cases form <;> rfl

/-- The fabric that the content of a file holds. -/
def ofContent (form : Form) (content : Content) : Except LoadProblem Fabric :=
  match (form.text? content).bind Snapshot.read with
  | some f => .ok f
  | none => .error .badSnapshot

/-- The fabric that a path leads to. A folder can be opened, but it is no file that could be
mapped into memory, and it holds no snapshot. -/
def ofEntry (form : Form) : Except FileProblem Entry → Except LoadProblem Fabric
  | .error p => .error (.file p)
  | .ok .folder =>
    match form with
    | .raw => .error (.mapping .noDevice)
    | .compressed => .error .badSnapshot
  | .ok (.file content) => ofContent form content

variable {m : Type → Type} [Monad m]

/-- The fabric at a path. -/
def load (disk : Disk m) (form : Form) (path : String) : m (Except LoadProblem Fabric) := do
  return ofEntry form (← disk.read path)

/-- A fabric is written to a path. -/
def save (disk : Disk m) (form : Form) (path : String) (f : Fabric) :
    m (Except LoadProblem Unit) := do
  match ← disk.write path (form.content (Snapshot.write f)) with
  | .ok () => return .ok ()
  | .error p => return .error (.file p)

end RoutingFabric.Snapshot
