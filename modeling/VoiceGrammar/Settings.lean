/-
Settings of a project, kept in a file: which grammar to generate from, and where to.

The file has one table, `generate`, all of whose fields may be left out; other names are
refused. The fields may also be given by position, and then only the last may be left
out. Relative paths in the file are meant from the directory that holds it.
-/
import VoiceGrammar.Files.Operations
import VoiceGrammar.Target
import VoiceGrammar.Toml.Statement

namespace VoiceGrammar

set_option autoImplicit false

structure Settings where
  grammar : Option Path
  out : Option Path
  target : Option Target
  package : Option String
  sourceRoots : List Path
  deriving DecidableEq, Repr

namespace Settings

open Toml (Node)

/-- Settings that leave everything open. -/
def unset : Settings := ⟨none, none, none, none, []⟩

def text? : Node → Option String
  | .text value => some value
  | _ => none

def path? (node : Node) : Option Path :=
  (text? node).map Path.mk

def paths? : Node → Option (List Path)
  | .list items => items.mapM path?
  | _ => none

def isEmptyNode : Node → Bool
  | .list [] => true
  | .table _ [] => true
  | _ => false

/-- A target is given by its name, or by a table whose only member has that name and is
empty. -/
def target? : Node → Option Target
  | .text name => Target.ofName? name
  | .table _ [(name, content)] => if isEmptyNode content then Target.ofName? name else none
  | _ => none

/-- Read a field that may be left out. -/
def optional? {α : Type} (read : Node → Option α) : Option Node → Option (Option α)
  | none => some none
  | some node => (read node).map some

/-- The settings that the fields of the table give. -/
def ofFields? (grammar out target package sourceRoots : Option Node) : Option Settings := do
  return {
    grammar := ← optional? path? grammar
    out := ← optional? path? out
    target := ← optional? target? target
    package := ← optional? text? package
    sourceRoots := (← optional? paths? sourceRoots).getD [] }

def fieldNames : List String := ["grammar", "out", "target", "package", "source_roots"]

/-- The settings that the table `generate` gives. -/
def ofGenerate? : Node → Option Settings
  | .table _ members =>
    if members.all fun (key, _) => fieldNames.contains key then
      ofFields? (members.lookup "grammar") (members.lookup "out") (members.lookup "target")
        (members.lookup "package") (members.lookup "source_roots")
    else none
  | .list (grammar :: out :: target :: package :: later) =>
    ofFields? (some grammar) (some out) (some target) (some package) later.head?
  | _ => none

/-- The settings that the root table of a file gives. -/
def ofRoot? : Node → Option Settings
  | .table _ [] => some unset
  | .table _ [("generate", node)] => ofGenerate? node
  | _ => none

/-- The settings that a text gives. -/
def parse? (text : String) : Option Settings :=
  (Node.parse? text).bind ofRoot?

/-- The same settings with relative paths seen from `base`. -/
def relativeTo (base : Path) (settings : Settings) : Settings :=
  { settings with
    grammar := settings.grammar.map base.join
    out := settings.out.map base.join
    sourceRoots := settings.sourceRoots.map base.join }

/-- Why a file gave no settings. -/
inductive Error where
  | unreadable (path : Path) (cause : IoError)
  | invalid (path : Path)
  deriving DecidableEq, Repr

/-- The reader says that a file is invalid and not where, so the message ends in dots. -/
def Error.message : Error → String
  | unreadable path cause => "could not read '" ++ path.text ++ "': " ++ cause.message
  | invalid path => "could not parse '" ++ path.text ++ "': ..."

/-- The settings of a file. -/
def read {m : Type → Type} [Monad m] [Files m] (path : Path) : m (Except Error Settings) := do
  match ← Files.readText path with
  | .error cause => return .error (.unreadable path cause)
  | .ok text =>
    match parse? text with
    | none => return .error (.invalid path)
    | some settings => return .ok (settings.relativeTo (path.parent?.getD ⟨""⟩))

end Settings

end VoiceGrammar
