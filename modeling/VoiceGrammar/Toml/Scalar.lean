/-
TOML values that are neither texts nor collections.

No setting is such a value, but one may stand where a list is longer than it needs to be.
Of floats and moments the spelling is kept.
-/
import VoiceGrammar.Toml.Moment
import VoiceGrammar.Toml.Number

namespace VoiceGrammar.Toml

set_option autoImplicit false

inductive Scalar where
  | boolean (value : Bool)
  | integer (value : Int)
  | float (spelling : String)
  | moment (spelling : String)
  deriving DecidableEq, Repr

namespace Scalar

/-- The characters before a later part of the text. -/
def spelling (text rest : List Char) : String :=
  String.ofList (text.take (text.length - rest.length))

/-- The scalar at the start of the text. A text that could be read in several ways is a
moment before it is a float, and a float before it is an integer. -/
def first? (text : List Char) : Option (Scalar × List Char) :=
  match text with
  | 't' :: 'r' :: 'u' :: 'e' :: rest => some (boolean true, rest)
  | 'f' :: 'a' :: 'l' :: 's' :: 'e' :: rest => some (boolean false, rest)
  | _ =>
    match moment? text with
    | some rest => some (moment (spelling text rest), rest)
    | none =>
      match float? text with
      | some rest => some (float (spelling text rest), rest)
      | none => (integer? text).map fun (value, rest) => (integer value, rest)

end Scalar

end VoiceGrammar.Toml
