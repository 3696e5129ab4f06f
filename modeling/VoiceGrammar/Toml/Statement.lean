/-
The statements of a TOML text and the tree they build.

A text is a sequence of lines, each blank or with one statement: a header, which says
what table the following lines fill, or an assignment. Comments may end a line. Values
between brackets go on over lines, those between braces do not. A line ends in a line
feed, which a carriage return may precede; elsewhere a carriage return may not stand.

Brackets and braces nest at most 79 deep, and a key has at most 79 parts.
-/
import VoiceGrammar.Toml.Node
import VoiceGrammar.Toml.Text

namespace VoiceGrammar.Toml

set_option autoImplicit false

/-- The text with single characters for line breaks. -/
def unifyBreaks? : List Char → Option (List Char)
  | [] => some []
  | '\r' :: '\n' :: text => (unifyBreaks? text).map ('\n' :: ·)
  | c :: text => if c == '\r' then none else (unifyBreaks? text).map (c :: ·)

def skipBlanks (text : List Char) : List Char :=
  text.dropWhile isBlank

/-- What follows a comment, or the text itself. -/
def skipComment : List Char → List Char
  | '#' :: comment => comment.dropWhile isPlain
  | text => text

/-- What follows blanks, line breaks and comments. -/
def skipGap (inComment : Bool) : List Char → List Char
  | [] => []
  | c :: text =>
    if inComment then
      if isPlain c then skipGap true text
      else if c == '\n' then skipGap false text
      else c :: text
    else if isSpace c then skipGap false text
    else if c == '#' then skipGap true text
    else c :: text

/-- What follows the end of a line. -/
def lineEnd? (text : List Char) : Option (List Char) :=
  match skipComment (skipBlanks text) with
  | [] => some []
  | '\n' :: rest => some rest
  | _ => none

def isKeyChar (c : Char) : Bool :=
  c.isAlphanum || c == '-' || c == '_'

/-- One part of a key, bare or quoted on one line. -/
def keyPart? (text : List Char) : Option (String × List Char) :=
  match text with
  | [] => none
  | c :: rest =>
    match Quoting.ofMark? c with
    | some quoting => (quoting.line? rest).map fun (key, behind) => (String.ofList key, behind)
    | none =>
      let key := text.takeWhile isKeyChar
      if key.isEmpty then none else some (String.ofList key, text.dropWhile isKeyChar)

/-- The parts of a key between dots, with blanks around each. There may be so many parts. -/
def key? : Nat → List Char → Option (List String × List Char)
  | 0, _ => none
  | parts + 1, text => do
    let (part, rest) ← keyPart? (skipBlanks text)
    match skipBlanks rest with
    | '.' :: rest =>
      let (path, behind) ← key? parts rest
      return (part :: path, behind)
    | behind => return ([part], behind)

/-- How many parts a key may have. -/
def maxKeyParts : Nat := 79

/-- How deep brackets and braces may nest. -/
def maxDepth : Nat := 79

mutual

/-- The value at the start of the text, in which `depth` brackets and braces may nest. Each
value and each key takes one unit of fuel. -/
def value? : Nat → Nat → List Char → Option (Node × List Char)
  | 0, _, _ => none
  | _ + 1, _, [] => none
  | fuel + 1, depth, c :: rest =>
    match Quoting.ofMark? c with
    | some quoting =>
      (quoting.text? rest).map fun (text, behind) => (.text (String.ofList text), behind)
    | none =>
      if c == '[' then
        if depth == 0 then none
        else (items? fuel (depth - 1) (skipGap false rest)).map fun (items, behind) =>
          (.list items, behind)
      else if c == '\x7b' then
        if depth == 0 then none
        else
          match skipBlanks rest with
          | '\x7d' :: behind => some (.table .braces [], behind)
          | _ => do
            let (assignments, behind) ← assignments? fuel (depth - 1) rest
            return (← Node.ofAssignments? assignments, behind)
      else (Scalar.first? (c :: rest)).map fun (value, behind) => (.scalar value, behind)

/-- Items up to a closing bracket, each but the last with a comma behind it. -/
def items? : Nat → Nat → List Char → Option (List Node × List Char)
  | 0, _, _ => none
  | _ + 1, _, ']' :: behind => some ([], behind)
  | fuel + 1, depth, text => do
    let (item, rest) ← value? fuel depth text
    match skipGap false rest with
    | ']' :: behind => return ([item], behind)
    | ',' :: rest =>
      let (items, behind) ← items? fuel depth (skipGap false rest)
      return (item :: items, behind)
    | _ => none

/-- Assignments up to a closing brace, with commas between them. -/
def assignments? : Nat → Nat → List Char → Option (List (List String × Node) × List Char)
  | 0, _, _ => none
  | fuel + 1, depth, text => do
    let (path, rest) ← key? maxKeyParts text
    match rest with
    | '=' :: rest =>
      let (value, rest) ← value? fuel depth (skipBlanks rest)
      match skipBlanks rest with
      | '\x7d' :: behind => return ([(path, value)], behind)
      | ',' :: rest =>
        let (assignments, behind) ← assignments? fuel depth rest
        return ((path, value) :: assignments, behind)
      | _ => none
    | _ => none

end

inductive Statement where
  | header (path : List String)
  | assignment (path : List String) (value : Node)

namespace Statement

/-- The statement at the start of the text, and the text behind its line. -/
def first? (fuel : Nat) (text : List Char) : Option (Statement × List Char) :=
  match text with
  | '[' :: inner => do
    let (path, rest) ← key? maxKeyParts inner
    match rest with
    | ']' :: rest => return (header path, ← lineEnd? rest)
    | _ => none
  | _ => do
    let (path, rest) ← key? maxKeyParts text
    match rest with
    | '=' :: rest =>
      let (value, rest) ← value? fuel maxDepth (skipBlanks rest)
      return (assignment path value, ← lineEnd? rest)
    | _ => none

/-- The statements of a text. Every line takes one unit of fuel. -/
def all? (size : Nat) : Nat → List Char → Option (List Statement)
  | 0, _ => none
  | fuel + 1, text =>
    match skipBlanks text with
    | [] => some []
    | '\n' :: rest => all? size fuel rest
    | '#' :: comment => do all? size fuel (← lineEnd? ('#' :: comment))
    | line => do
      let (statement, rest) ← first? size line
      return statement :: (← all? size fuel rest)

/-- The statements of a text; a byte order mark may stand before them. -/
def ofText? (text : String) : Option (List Statement) := do
  let chars := match text.toList with
    | '\ufeff' :: chars => chars
    | chars => chars
  let chars ← unifyBreaks? chars
  all? (chars.length + 1) (chars.length + 1) chars

end Statement

/-- A tree under construction, and the header of the table being filled. -/
structure Construction where
  root : Node
  current : List String

namespace Construction

def start : Construction := ⟨.table .header [], []⟩

def add? (construction : Construction) : Statement → Option Construction
  | .header path => (construction.root.openTable? path).map (⟨·, path⟩)
  | .assignment path value =>
    (Node.underHeader? (Node.assign? path value) construction.current construction.root).map
      (⟨·, construction.current⟩)

end Construction

/-- The root table of a text. -/
def Node.parse? (text : String) : Option Node := do
  let statements ← Statement.ofText? text
  let built ← statements.foldlM Construction.add? Construction.start
  return built.root

end VoiceGrammar.Toml
