/-
Generating decoders: from a grammar to program text, and into a file.

The grammar is compiled with the reserved words of the target, the names of its intents
are checked, and the decoder is written down. Before a file is touched the output path
is checked and the whole text is made; then missing directories are created and the file
is written.
-/
import VoiceGrammar.Decoder.Kotlin
import VoiceGrammar.Decoder.Rust
import VoiceGrammar.Files.Operations
import VoiceGrammar.Grammar

namespace VoiceGrammar

set_option autoImplicit false

/-- The text of the decoder of a model; there is none if a variable names a slot that is
not there. Only Kotlin files have a package. -/
def Model.render? (model : Model) (target : Target) (package : Option String) : Option String :=
  (Decoder.Program.ofModel? target model).map fun program =>
    match target with
    | .rust => Decoder.Rust.render program
    | .kotlin => Decoder.Kotlin.render package program

inductive GenerationError where
  | compile (cause : CompileError)
  | name (cause : NameError)
  /-- A variable of the model names a slot that is not there. -/
  | danglingSlot
  | outputIsDirectory (path : Path)
  | wrongExtension (path : Path) (expected : String)
  | io (path : Path) (cause : IoError)
  deriving DecidableEq, Repr

def GenerationError.message : GenerationError → String
  | compile cause => cause.message
  | name cause => cause.message
  | danglingSlot => "a variable names a slot that does not exist"
  | outputIsDirectory path => "output file must not be a directory, got '" ++ path.text ++ "'"
  | wrongExtension path expected =>
    "output file must end in ." ++ expected ++ ", got '" ++ path.text ++ "'"
  | io path cause => "I/O error at '" ++ path.text ++ "': " ++ cause.message

namespace Grammar

/-- The text of the decoder of a grammar. -/
def decoderText (grammar : Grammar) (target : Target) (package : Option String) :
    Logged GenerationError String := do
  let model ← (grammar.compile target.reserved).mapError .compile
  Logged.ofExcept ((model.checkNames target).mapError .name)
  match model.render? target package with
  | some text => return text
  | none => Logged.fail .danglingSlot

/-- Create the directories that a file needs. -/
def prepareParent {m : Type → Type} [Monad m] [Files m] (out : Path) :
    m (Except GenerationError Unit) := do
  match out.parent?.filter (!·.text.isEmpty) with
  | none => return .ok ()
  | some parent => return (← Files.createDirectories parent).mapError (.io parent)

/-- Create the directories that the file needs and write the text into it. -/
def writeText {m : Type → Type} [Monad m] [Files m] (out : Path) (text : String) :
    m (Except GenerationError Unit) := do
  match ← prepareParent out with
  | .error error => return .error error
  | .ok () => return (← Files.write out text.toUTF8).mapError (.io out)

/-- Generate the decoder of a grammar into the file `out`. -/
def generate {m : Type → Type} [Monad m] [Files m] (grammar : Grammar) (target : Target)
    (package : Option String) (out : Path) : m (Logged GenerationError Unit) := do
  if ← Files.isDirectory out then return .fail (.outputIsDirectory out)
  if out.extension? != some target.extension then
    return .fail (.wrongExtension out target.extension)
  let made := grammar.decoderText target package
  match made.outcome with
  | .error error => return ⟨made.events, .error error⟩
  | .ok text =>
    match ← writeText out text with
    | .error error => return ⟨made.events, .error error⟩
    | .ok () => return ⟨made.events ++ [.wroteDecoder out.text target.name], .ok ()⟩

end Grammar

end VoiceGrammar
