/-
Words that an output language keeps for itself, and names that avoid them.

A name that is a reserved word is written with its first character in upper case
(`true` becomes `True`); every other name stays as it is.
-/
import VoiceGrammar.Text.UpperCase

namespace VoiceGrammar

set_option autoImplicit false

structure ReservedWords where
  words : List String

namespace ReservedWords

def contains (reserved : ReservedWords) (name : String) : Bool :=
  reserved.words.contains name

/-- The text with its first character in upper case. -/
def capitalize (name : String) : String :=
  match name.toList with
  | [] => ""
  | first :: rest => String.ofList (Text.upperCase first ++ rest)

/-- The name itself, or its capitalized form if it is reserved. -/
def escape (reserved : ReservedWords) (name : String) : String :=
  if reserved.contains name then capitalize name else name

/-- Strict and reserved keywords of Rust. -/
def rust : ReservedWords where
  words := [
    "abstract", "as", "async", "await", "become", "box", "break", "const", "continue", "crate",
    "do", "dyn", "else", "enum", "extern", "false", "final", "fn", "for", "if", "impl", "in",
    "let", "loop", "macro", "match", "mod", "move", "mut", "override", "priv", "pub", "ref",
    "return", "self", "static", "struct", "super", "trait", "true", "try", "type", "typeof",
    "unsafe", "unsized", "use", "virtual", "where", "while", "yield"]

/-- Hard keywords of Kotlin. -/
def kotlin : ReservedWords where
  words := [
    "as", "break", "class", "continue", "do", "else", "false", "for", "fun", "if", "in",
    "interface", "is", "null", "object", "package", "return", "super", "this", "throw", "true",
    "try", "typealias", "typeof", "val", "var", "when", "while"]

end ReservedWords

end VoiceGrammar
