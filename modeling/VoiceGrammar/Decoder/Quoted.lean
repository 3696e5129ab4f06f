/-
String literals of the output languages.

A literal stands in double quotes. A quote, a backslash, a line feed, a tab and a
carriage return are written as a backslash and a sign; where a dollar would start a
template it is escaped the same way. `unquote?` reads a literal back.
-/
namespace VoiceGrammar.Decoder

set_option autoImplicit false

/-- How one character stands in a literal. -/
def escapeChar (dollar : Bool) (c : Char) : List Char :=
  match c with
  | '"' => ['\\', '"']
  | '\\' => ['\\', '\\']
  | '\n' => ['\\', 'n']
  | '\t' => ['\\', 't']
  | '\r' => ['\\', 'r']
  | '$' => if dollar then ['\\', '$'] else ['$']
  | _ => [c]

def quoteChars (dollar : Bool) (text : List Char) : List Char :=
  '"' :: (text.flatMap (escapeChar dollar) ++ ['"'])

/-- The literal that denotes `text`. -/
def quote (dollar : Bool) (text : String) : String :=
  String.ofList (quoteChars dollar text.toList)

/-- The character that the sign behind a backslash denotes. -/
def unescape? (dollar : Bool) (sign : Char) : Option Char :=
  match sign with
  | '"' => some '"'
  | '\\' => some '\\'
  | 'n' => some '\n'
  | 't' => some '\t'
  | 'r' => some '\r'
  | '$' => if dollar then some '$' else none
  | _ => none

/-- The text up to the closing quote and what follows it. -/
def unquoteBody? (dollar : Bool) : List Char → Option (List Char × List Char)
  | [] => none
  | '"' :: rest => some ([], rest)
  | '\\' :: sign :: rest => do
    let c ← unescape? dollar sign
    let (text, behind) ← unquoteBody? dollar rest
    return (c :: text, behind)
  | c :: rest =>
    (unquoteBody? dollar rest).map fun (text, behind) => (c :: text, behind)

/-- The text that a literal at the start of the input denotes, and what follows it. -/
def unquote? (dollar : Bool) : List Char → Option (List Char × List Char)
  | '"' :: rest => unquoteBody? dollar rest
  | _ => none

end VoiceGrammar.Decoder
