/-
What the program does with files, whatever holds them.

`Files m` gives the elementary operations in a monad `m`; a disk and a file system
that is a value both provide them. Creating a directory with its missing ancestors
and reading text are built on top.
-/
import VoiceGrammar.Path

namespace VoiceGrammar

set_option autoImplicit false

inductive IoError where
  | notFound
  | alreadyExists
  | notADirectory
  | isADirectory
  | nameTooLong
  | nulInName
  | invalidText
  /-- Any other failure, in the words of the system. -/
  | other (message : String)
  deriving DecidableEq, Repr

def IoError.message : IoError → String
  | notFound => "No such file or directory (os error 2)"
  | alreadyExists => "File exists (os error 17)"
  | notADirectory => "Not a directory (os error 20)"
  | isADirectory => "Is a directory (os error 21)"
  | nameTooLong => "File name too long (os error 36)"
  | nulInName => "file name contained an unexpected NUL byte"
  | invalidText => "stream did not contain valid UTF-8"
  | other message => message

class Files (m : Type → Type) where
  isDirectory : Path → m Bool
  isFile : Path → m Bool
  read : Path → m (Except IoError ByteArray)
  /-- Create one directory; its parent has to be there. -/
  createDirectory : Path → m (Except IoError Unit)
  /-- Give the file this content, creating it if it is missing. -/
  write : Path → ByteArray → m (Except IoError Unit)

namespace Files

variable {m : Type → Type} [Monad m] [Files m]

/-- The content of a file that holds text. -/
def readText (path : Path) : m (Except IoError String) := do
  match ← Files.read path with
  | .error error => return .error error
  | .ok bytes =>
    match String.fromUTF8? bytes with
    | some text => return .ok text
    | none => return .error .invalidText

/-- Accept that a directory is there already. -/
def settleDirectory (path : Path) (outcome : Except IoError Unit) : m (Except IoError Unit) := do
  match outcome with
  | .error .alreadyExists =>
    if ← Files.isDirectory path then return .ok () else return .error .alreadyExists
  | _ => return outcome

/-- Create the first directory of the list, if need be after those behind it, which are
its ancestors. The empty path and the root are always there. -/
def createNearest : List Path → m (Except IoError Unit)
  | [] => return .ok ()
  | path :: ancestors => do
    if path.parent?.isNone then return .ok ()
    match ← Files.createDirectory path with
    | .error .notFound =>
      match ← createNearest ancestors with
      | .error error => return .error error
      | .ok () => settleDirectory path (← Files.createDirectory path)
    | outcome => settleDirectory path outcome

/-- Create a directory and the ancestors it lacks. -/
def createDirectories (path : Path) : m (Except IoError Unit) :=
  createNearest path.ancestors

end Files

end VoiceGrammar
