/-
The command line program: files come from the disk, events go to the error output.
-/
import VoiceGrammar.Command.Run

namespace VoiceGrammar

set_option autoImplicit false

/-- The cause of a failed operation on the disk. -/
def IoError.ofDisk (error : IO.Error) : IoError :=
  match error with
  | .noFileOrDirectory .. => .notFound
  | .alreadyExists .. => .alreadyExists
  | .inappropriateType _ 20 _ => .notADirectory
  | .inappropriateType _ 21 _ => .isADirectory
  | _ => .other (toString error)

/-- What an operation on the disk gives. -/
def onDisk {α : Type} (operation : IO α) : IO (Except IoError α) := do
  match ← operation.toBaseIO with
  | .ok value => return .ok value
  | .error error => return .error (.ofDisk error)

/-- The kind of what lies at a path, if anything does. -/
def kindOnDisk (path : Path) : IO (Option IO.FS.FileType) := do
  match ← (do (← IO.FS.realPath path.text).metadata : IO IO.FS.Metadata).toBaseIO with
  | .ok metadata => return some metadata.type
  | .error _ => return none

instance : Files IO where
  isDirectory path := return (← kindOnDisk path) == some .dir
  isFile path := return (← kindOnDisk path) == some .file
  read path := onDisk (IO.FS.readBinFile path.text)
  createDirectory path := onDisk (IO.FS.createDir path.text)
  write path content := onDisk (IO.FS.writeBinFile path.text content)

end VoiceGrammar

open VoiceGrammar in
def main (arguments : List String) : IO UInt32 := do
  let outcome : Outcome ← runProgram arguments
  for event in outcome.events do
    IO.eprintln event.line
  IO.print outcome.output
  IO.eprint outcome.errors
  return outcome.code.toUInt32
