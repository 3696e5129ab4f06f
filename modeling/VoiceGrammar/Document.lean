/-
Grammar documents: texts in one of two formats.

The extension of a file tells its format. A blank text is empty in either format; any
other text is read as an outline, which is then checked.
-/
import VoiceGrammar.Document.JsonOutline
import VoiceGrammar.Document.YamlOutline
import VoiceGrammar.Files.Operations
import VoiceGrammar.Text.Blank

namespace VoiceGrammar

set_option autoImplicit false

def Format.ofPath? (path : Path) : Option Format :=
  match path.extension? with
  | some "yml" => some .yaml
  | some "yaml" => some .yaml
  | some "json" => some .json
  | _ => none

/-- The outline of a text in a format, if it is a document of that format. -/
def Format.outline? (text : String) : Format → Option Outline
  | .yaml => Outline.ofYaml? text
  | .json => (Json.Node.parse? text).bind Outline.ofJson?

namespace Grammar

/-- The grammar that a document describes. -/
def parse (text : String) (format : Format) : Except DocumentError Grammar :=
  if Text.allBlank text then .error .emptyDocument
  else
    match format.outline? text with
    | none => .error (.invalid format)
    | some outline => outline.toGrammar

/-- Why a grammar file gave no grammar. -/
inductive ReadError where
  | unsupported (path : Path)
  | unreadable (path : Path) (cause : IoError)
  | document (cause : DocumentError)
  deriving DecidableEq, Repr

def ReadError.message : ReadError → String
  | unsupported path =>
    "unsupported grammar file '" ++ path.text ++ "': expected .yml, .yaml or .json"
  | unreadable path cause => "error reading '" ++ path.text ++ "': " ++ cause.message
  | document cause => cause.message

/-- The grammar of a file. -/
def read {m : Type → Type} [Monad m] [Files m] (path : Path) : m (Logged ReadError Grammar) := do
  match Format.ofPath? path with
  | none => return .fail (.unsupported path)
  | some format =>
    match ← Files.readText path with
    | .error cause => return .fail (.unreadable path cause)
    | .ok text =>
      return (Logged.report (.readingGrammar path.text format.name)).bind fun _ =>
        Logged.ofExcept ((parse text format).mapError .document)

end Grammar

end VoiceGrammar
