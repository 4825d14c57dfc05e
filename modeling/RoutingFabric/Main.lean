import RoutingFabric.Command.Basic
import RoutingFabric.Gzip.Basic

/-!
# The program

The command of the arguments is carried out on the files of the machine, and what it prints is
printed.
-/

namespace RoutingFabric

/-- What went wrong with a file, by the number and the text the operating system gives it. -/
def FileProblem.ofCode (code : Nat) (text : String) : FileProblem :=
  let named := [notFound, denied, noDevice, notDirectory, isDirectory, nameTooLong]
  match named.find? (·.code == some code) with
  | some p => p
  | none => .other code text

/-- What went wrong with a file. -/
def FileProblem.ofError : IO.Error → FileProblem
  | .alreadyExists _ code text
  | .otherError code text
  | .resourceBusy code text
  | .resourceVanished code text
  | .unsupportedOperation code text
  | .hardwareFault code text
  | .unsatisfiedConstraints code text
  | .illegalOperation code text
  | .protocolError code text
  | .timeExpired code text
  | .interrupted _ code text
  | .noFileOrDirectory _ code text
  | .invalidArgument _ code text
  | .permissionDenied _ code text
  | .resourceExhausted _ code text
  | .inappropriateType _ code text
  | .noSuchThing _ code text => ofCode code.toNat text
  | .unexpectedEof => .other 0 "unexpected end of file"
  | .userError text => .other 0 text

/-- The files of the machine. -/
def machine : Files.Disk IO where
  read path := do
    match ← (IO.FS.readBinFile path).toBaseIO with
    | .ok data => return .ok (.file (Gzip.contentOf data))
    | .error e =>
      match FileProblem.ofError e with
      | .isDirectory => return .ok .folder
      | p => return .error p
  write path content := do
    match ← (IO.FS.writeBinFile path (Gzip.bytesOfContent content)).toBaseIO with
    | .ok () => return .ok ()
    | .error e => return .error (FileProblem.ofError e)

end RoutingFabric

open RoutingFabric in
/-- The command of the arguments is carried out. -/
def main (args : List String) : IO UInt32 := do
  let log ← IO.getEnv Log.variableName
  let response ← Command.runArgs machine log args
  IO.print response.out
  IO.eprint response.err
  return response.code.toUInt32
