/-
JSON texts and the trees they describe.

The grammar is strict: one value between blanks, no comments, no commas at the end.
The tree keeps number literals as written. A string is well formed whatever its
hexadecimal escapes name, but denotes a text only if they name characters, where the
two halves of a surrogate pair are written one behind the other.
-/
import VoiceGrammar.Json.Number
import VoiceGrammar.Text.Hexadecimal

namespace VoiceGrammar.Json

set_option autoImplicit false

inductive Node where
  | null
  | bool (value : Bool)
  | number (literal : NumberLiteral)
  | string (text : Option String)
  | array (items : List Node)
  | object (members : List (Option String × Node))

namespace Node

def isBlank (c : Char) : Bool :=
  c == ' ' || c == '\n' || c == '\t' || c == '\r'

def skipBlanks (text : List Char) : List Char :=
  text.dropWhile isBlank

/-- What the text continues with behind `word`. -/
def expect? (word : List Char) (text : List Char) : Option (List Char) :=
  if word.isPrefixOf text then some (text.drop word.length) else none

/-- A character of a string: as it stands or by its simple escape, or as a 16-bit code. -/
inductive Unit16 where
  | char (c : Char)
  | code (value : Nat)

def escape? : Char → Option Char
  | '"' => some '"'
  | '\\' => some '\\'
  | '/' => some '/'
  | 'b' => some '\x08'
  | 'f' => some '\x0c'
  | 'n' => some '\n'
  | 'r' => some '\r'
  | 't' => some '\t'
  | _ => none

/-- The characters of a string up to its closing quote, and the text behind it. -/
def stringBody? : List Char → Option (List Unit16 × List Char)
  | [] => none
  | '"' :: rest => some ([], rest)
  | '\\' :: 'u' :: a :: b :: c :: d :: rest => do
    let code ← Text.hexValue? [a, b, c, d]
    let (units, behind) ← stringBody? rest
    return (.code code :: units, behind)
  | '\\' :: sign :: rest => do
    let c ← escape? sign
    let (units, behind) ← stringBody? rest
    return (.char c :: units, behind)
  | c :: rest =>
    if c.toNat < 0x20 then none
    else (stringBody? rest).map fun (units, behind) => (.char c :: units, behind)

def isHighHalf (code : Nat) : Bool :=
  0xD800 ≤ code && code ≤ 0xDBFF

def isLowHalf (code : Nat) : Bool :=
  0xDC00 ≤ code && code ≤ 0xDFFF

/-- The text of the characters; none if a half of a surrogate pair stands alone. -/
def units? : List Unit16 → Option (List Char)
  | [] => some []
  | .char c :: rest => (units? rest).map (c :: ·)
  | .code high :: .code low :: rest =>
    if isHighHalf high && isLowHalf low then
      (units? rest).map (Char.ofNat (0x10000 + (high - 0xD800) * 0x400 + (low - 0xDC00)) :: ·)
    else if isHighHalf high || isLowHalf high then none
    else (units? (.code low :: rest)).map (Char.ofNat high :: ·)
  | .code code :: rest =>
    if isHighHalf code || isLowHalf code then none
    else (units? rest).map (Char.ofNat code :: ·)

/-- The text of a string whose opening quote has been read. -/
def string? (text : List Char) : Option (Option String × List Char) :=
  (stringBody? text).map fun (units, rest) => ((units? units).map String.ofList, rest)

/-- One or more digits. -/
def digits? (text : List Char) : Option (List Char × List Char) :=
  let digits := text.takeWhile Text.isDigit
  if digits.isEmpty then none else some (digits, text.dropWhile Text.isDigit)

/-- The digits behind a point, if there is a point. -/
def decimals? : List Char → Option (Option (List Char) × List Char)
  | '.' :: rest => (digits? rest).map fun (digits, behind) => (some digits, behind)
  | text => some (none, text)

/-- The sign and the digits behind an exponent mark, if there is one. -/
def exponent? : List Char → Option (Option (Bool × List Char) × List Char)
  | mark :: rest =>
    if mark == 'e' || mark == 'E' then
      let (negative, unsigned) :=
        match rest with
        | '+' :: later => (false, later)
        | '-' :: later => (true, later)
        | _ => (false, rest)
      (digits? unsigned).map fun (digits, behind) => (some (negative, digits), behind)
    else some (none, mark :: rest)
  | [] => some (none, [])

/-- A number literal. A zero at its start is the only whole digit. -/
def number? (text : List Char) : Option (NumberLiteral × List Char) := do
  let (negative, unsigned) :=
    match text with
    | '-' :: rest => (true, rest)
    | _ => (false, text)
  let (whole, rest) ← digits? unsigned
  if whole.length > 1 && whole.head? == some '0' then none
  let (decimals, rest) ← decimals? rest
  let (exponent, rest) ← exponent? rest
  return (⟨negative, whole, decimals, exponent⟩, rest)

/-- One blank-free piece of a list between its brackets. -/
inductive ListEnd where
  | more (rest : List Char)
  | closed (rest : List Char)

/-- The comma or the closing bracket behind an item. -/
def listEnd? (closing : Char) (text : List Char) : Option ListEnd :=
  match skipBlanks text with
  | ',' :: rest => some (.more rest)
  | c :: rest => if c == closing then some (.closed rest) else none
  | [] => none

mutual

/-- The value at the start of the text. Each level of the tree and each item of a list
takes one unit of fuel. -/
def value? : Nat → List Char → Option (Node × List Char)
  | 0, _ => none
  | fuel + 1, text =>
    match skipBlanks text with
    | '"' :: rest => (string? rest).map fun (text, behind) => (.string text, behind)
    | '[' :: rest =>
      match skipBlanks rest with
      | ']' :: behind => some (.array [], behind)
      | _ => (items? fuel rest).map fun (items, behind) => (.array items, behind)
    | '\x7b' :: rest =>
      match skipBlanks rest with
      | '\x7d' :: behind => some (.object [], behind)
      | _ => (members? fuel rest).map fun (members, behind) => (.object members, behind)
    | text =>
      match expect? ['n', 'u', 'l', 'l'] text with
      | some behind => some (.null, behind)
      | none =>
        match expect? ['t', 'r', 'u', 'e'] text with
        | some behind => some (.bool true, behind)
        | none =>
          match expect? ['f', 'a', 'l', 's', 'e'] text with
          | some behind => some (.bool false, behind)
          | none => (number? text).map fun (literal, behind) => (.number literal, behind)

/-- The items of a list that is not empty, up to its closing bracket. -/
def items? : Nat → List Char → Option (List Node × List Char)
  | 0, _ => none
  | fuel + 1, text => do
    let (item, rest) ← value? fuel text
    match ← listEnd? ']' rest with
    | .closed behind => return ([item], behind)
    | .more rest =>
      let (items, behind) ← items? fuel rest
      return (item :: items, behind)

/-- The members of an object that is not empty, up to its closing brace. -/
def members? : Nat → List Char → Option (List (Option String × Node) × List Char)
  | 0, _ => none
  | fuel + 1, text =>
    match skipBlanks text with
    | '"' :: rest => do
      let (key, rest) ← string? rest
      match skipBlanks rest with
      | ':' :: rest =>
        let (value, rest) ← value? fuel rest
        match ← listEnd? '\x7d' rest with
        | .closed behind => return ([(key, value)], behind)
        | .more rest =>
          let (members, behind) ← members? fuel rest
          return ((key, value) :: members, behind)
      | _ => none
    | _ => none

end

/-- The tree of a text that is one JSON value. -/
def parse? (text : String) : Option Node := do
  let chars := text.toList
  let (node, rest) ← value? (2 * chars.length + 2) chars
  if (skipBlanks rest).isEmpty then return node else none

end Node

end VoiceGrammar.Json
