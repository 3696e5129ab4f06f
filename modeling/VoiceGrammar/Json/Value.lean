/-
JSON values to be printed, in one line or indented.

Members keep their order. In a string the quote, the backslash and the control
characters are escaped, the latter by a letter where there is one; every other
character stands for itself. Indented output puts each item on a line of its own, two
blanks deeper, and leaves empty lists and objects closed.
-/
import VoiceGrammar.Text.Numeral

namespace VoiceGrammar.Json

set_option autoImplicit false

inductive Value where
  | null
  | bool (value : Bool)
  | integer (value : Int)
  | string (value : String)
  | array (items : List Value)
  | object (members : List (String × Value))

namespace Value

def hexDigit (value : Nat) : Char :=
  if value < 10 then Char.ofNat ('0'.toNat + value) else Char.ofNat ('a'.toNat + (value - 10))

def escapeChar (c : Char) : List Char :=
  match c with
  | '"' => ['\\', '"']
  | '\\' => ['\\', '\\']
  | '\n' => ['\\', 'n']
  | '\r' => ['\\', 'r']
  | '\t' => ['\\', 't']
  | '\x08' => ['\\', 'b']
  | '\x0c' => ['\\', 'f']
  | _ =>
    if c.toNat < 0x20 then
      ['\\', 'u', '0', '0', hexDigit (c.toNat / 16), hexDigit (c.toNat % 16)]
    else [c]

def quoted (text : String) : String :=
  "\"" ++ String.ofList (text.toList.flatMap escapeChar) ++ "\""

mutual

/-- The value in one line, without blanks. -/
def compact : Value → String
  | null => "null"
  | bool value => if value then "true" else "false"
  | integer value => Text.signedDecimal value
  | string value => quoted value
  | array items => "[" ++ ",".intercalate (compactItems items) ++ "]"
  | object members => "\x7b" ++ ",".intercalate (compactMembers members) ++ "\x7d"

def compactItems : List Value → List String
  | [] => []
  | item :: items => compact item :: compactItems items

def compactMembers : List (String × Value) → List String
  | [] => []
  | (key, value) :: members => (quoted key ++ ":" ++ compact value) :: compactMembers members

end

def blanks (depth : Nat) : String :=
  String.ofList (List.replicate (2 * depth) ' ')

/-- Items on lines of their own between two brackets. -/
def block (opening closing : String) (depth : Nat) (items : List String) : String :=
  if items.isEmpty then opening ++ closing
  else
    opening ++ "\n" ++ ",\n".intercalate (items.map (blanks (depth + 1) ++ ·)) ++ "\n" ++
      blanks depth ++ closing

mutual

def indented (depth : Nat) : Value → String
  | array items => block "[" "]" depth (indentedItems (depth + 1) items)
  | object members => block "\x7b" "\x7d" depth (indentedMembers (depth + 1) members)
  | value => compact value

def indentedItems (depth : Nat) : List Value → List String
  | [] => []
  | item :: items => indented depth item :: indentedItems depth items

def indentedMembers (depth : Nat) : List (String × Value) → List String
  | [] => []
  | (key, value) :: members =>
    (quoted key ++ ": " ++ indented depth value) :: indentedMembers depth members

end

/-- The value over several lines. -/
def pretty (value : Value) : String :=
  indented 0 value

end Value

end VoiceGrammar.Json
