/-
Lines of program text, in pieces.

The lines of a decoder consist of words that every decoder of its target has, of literals,
and of labels: the names under which slots, elements, variables and intents are written
down. The text is what the pieces say, one behind the other.
-/
namespace VoiceGrammar.Decoder

set_option autoImplicit false

inductive Piece where
  /-- Words and signs of the target, and names that every decoder declares. -/
  | fixed (text : String)
  /-- A literal, as it is written. -/
  | literal (written : String)
  /-- The name of a slot, an element, a variable or an intent. -/
  | label (name : String)
  /-- The package of the file, as it was given. -/
  | package (name : String)
  deriving DecidableEq, Repr

def Piece.text : Piece → String
  | fixed text => text
  | literal written => written
  | label name => name
  | package name => name

abbrev Line := List Piece

namespace Line

def text (line : Line) : String :=
  String.join (line.map Piece.text)

/-- Several lines as one, with commas between them. -/
def commaSeparated (lines : List Line) : Line :=
  [Piece.fixed ", "].intercalate lines

end Line

/-- Lines that are the same in every decoder. -/
def fixedLines (texts : List String) : List Line :=
  texts.map fun text => [.fixed text]

/-- The text of lines. -/
def textOf (lines : List Line) : String :=
  String.join (lines.map fun line => line.text ++ "\n")

/-- The name of a type of values: one of the target, or that of an enumeration. -/
inductive TypeName where
  | builtin (name : String)
  | enumeration (name : String)
  deriving DecidableEq, Repr

namespace TypeName

def name : TypeName → String
  | builtin name => name
  | enumeration name => name

def piece : TypeName → Piece
  | builtin name => .fixed name
  | enumeration name => .label name

end TypeName

end VoiceGrammar.Decoder
