/-
The text of YAML scalars.

Plain and quoted scalars go on over line breaks. What stands between two of their words
is a gap: blanks within a line count as they are, a single line break counts as a
blank, and of several breaks all but the first count; blanks around breaks are dropped.
In a quoted scalar an escaped break counts as nothing.

A block scalar consists of the lines that are indented far enough. In the literal style
they are kept; in the folded style a break between two lines that do not begin with a
blank is folded like a gap. An indicator says what becomes of the breaks at the end.
-/
import VoiceGrammar.Text.Hexadecimal
import VoiceGrammar.Yaml.Cursor

namespace VoiceGrammar.Yaml

set_option autoImplicit false

/-- What stands between two words of a scalar. -/
inductive Gap where
  | blanks (text : List Char)
  /-- The first line break, unless it was escaped, and the others. -/
  | breaks (first : Option Char) (others : List Char)

namespace Gap

def text : Gap → List Char
  | blanks text => text
  | breaks (some first) others =>
    if first == '\n' then (if others.isEmpty then [' '] else others) else first :: others
  | breaks none others => others

def isBreaks : Gap → Bool
  | blanks _ => false
  | breaks _ _ => true

def addBlank (c : Char) : Gap → Gap
  | blanks text => blanks (text ++ [c])
  | gap => gap

def addBreak (c : Char) : Gap → Gap
  | blanks _ => breaks (some c) []
  | breaks first others => breaks first (others ++ [c])

/-- Read on to the next word. A tab is refused where `tabs` does not allow it. -/
def read? (tabs : Gap → Cursor → Bool) : Nat → Gap → Cursor → Option (Gap × Cursor)
  | 0, _, _ => none
  | fuel + 1, gap, cursor =>
    match cursor.lineBreak? with
    | some (c, next) => read? tabs fuel (gap.addBreak c) next
    | none =>
      match cursor.peek? with
      | some c =>
        if !isBlank c then some (gap, cursor)
        else if c == '\t' && !tabs gap cursor then none
        else read? tabs fuel (gap.addBlank c) (cursor.advance 1)
      | none => some (gap, cursor)

end Gap

/-- Characters that end a plain scalar inside brackets. -/
def isFlowIndicator (c : Char) : Bool :=
  c == ',' || c == '[' || c == ']' || c == '\x7b' || c == '\x7d'

/-- The word of a plain scalar at the start of the text. Inside brackets a colon before an
indicator is refused. -/
def plainWord? (flow : Bool) : List Char → Option (List Char)
  | [] => some []
  | c :: rest =>
    if isBlank c || isBreak c then some []
    else if flow && c == ':' && (rest.head?.any fun next => isFlowIndicator next || next == '?') then
      none
    else if (c == ':' && startsBlank rest) || (flow && isFlowIndicator c) then some []
    else (plainWord? flow rest).map (c :: ·)

/-- A plain scalar, read word by word. `indent` is the least column of its further lines.
The result says whether the cursor is on a new line behind the scalar. Each word and the gap
behind it take at least one character and one unit of fuel, so fuel for the text is fuel for
every gap. -/
def plainWords? (flow : Bool) (indent : Nat) :
    Nat → List Char → Gap → Cursor → Option (List Char × Bool × Cursor)
  | 0, _, _, _ => none
  | fuel + 1, text, gap, cursor =>
    if cursor.seesDocumentMarker || cursor.sees '#' then some (text, gap.isBreaks, cursor)
    else
      match plainWord? flow cursor.rest with
      | none => none
      | some word =>
        let (text, gap) := if word.isEmpty then (text, gap) else (text ++ gap.text ++ word, .blanks [])
        let cursor := cursor.advance word.length
        if cursor.rest.isEmpty || !startsBlank cursor.rest then some (text, gap.isBreaks, cursor)
        else
          let tabs (gap : Gap) (place : Cursor) := !gap.isBreaks || place.column ≥ indent
          match gap.read? tabs (fuel + 1) cursor with
          | none => none
          | some (gap, cursor) =>
            if !flow && cursor.column < indent then some (text, gap.isBreaks, cursor)
            else plainWords? flow indent fuel text gap cursor

def plain? (flow : Bool) (indent : Nat) (cursor : Cursor) : Option (String × Bool × Cursor) :=
  (plainWords? flow indent (cursor.rest.length + 1) [] (.blanks []) cursor).map
    fun (text, broke, behind) => (String.ofList text, broke, behind)

/-- What a sign behind a backslash denotes. -/
def escapedChar? : Char → Option Char
  | '0' => some '\x00'
  | 'a' => some '\x07'
  | 'b' => some '\x08'
  | 't' => some '\t'
  | '\t' => some '\t'
  | 'n' => some '\n'
  | 'v' => some '\x0b'
  | 'f' => some '\x0c'
  | 'r' => some '\r'
  | 'e' => some '\x1b'
  | ' ' => some ' '
  | '"' => some '"'
  | '/' => some '/'
  | '\\' => some '\\'
  | 'N' => some '\x85'
  | '_' => some '\xa0'
  | 'L' => some '\u2028'
  | 'P' => some '\u2029'
  | _ => none

/-- How many hexadecimal digits follow a sign behind a backslash. -/
def codeLength? : Char → Option Nat
  | 'x' => some 2
  | 'u' => some 4
  | 'U' => some 8
  | _ => none

/-- Why a word of a quoted scalar ends. -/
inductive WordEnd where
  | quote
  | gap
  | escapedBreak
  deriving DecidableEq

/-- The characters of a word, how many characters they are written in, and why it ends. -/
structure QuotedWord where
  text : List Char
  length : Nat
  ending : WordEnd

/-- A word with one more character before it. -/
def QuotedWord.cons (c : Char) (length : Nat) (word : QuotedWord) : QuotedWord :=
  ⟨c :: word.text, length + word.length, word.ending⟩

/-- The word of a quoted scalar at the start of the text. What follows begins with the
quote, with the gap, or with the escaped break behind its backslash. -/
def quotedWord? (single : Bool) : Nat → List Char → Option QuotedWord
  | 0, _ => none
  | _ + 1, [] => some ⟨[], 0, .gap⟩
  | fuel + 1, c :: rest =>
    if isBlank c || isBreak c then some ⟨[], 0, .gap⟩
    else if single && c == '\'' then
      match rest with
      | '\'' :: later => (quotedWord? single fuel later).map (.cons '\'' 2)
      | _ => some ⟨[], 0, .quote⟩
    else if !single && c == '"' then some ⟨[], 0, .quote⟩
    else if !single && c == '\\' then
      match rest with
      | [] => none
      | sign :: later =>
        if isBreak sign then some ⟨[], 1, .escapedBreak⟩
        else
          match codeLength? sign with
          | some length => do
            let digits := later.take length
            if digits.length < length then none
            let decoded ← Text.charOfCode? (← Text.hexValue? digits)
            return .cons decoded (2 + length) (← quotedWord? single fuel (later.drop length))
          | none => do
            let decoded ← escapedChar? sign
            return .cons decoded 2 (← quotedWord? single fuel later)
    else (quotedWord? single fuel rest).map (.cons c 1)

/-- A quoted scalar behind its opening quote. Fuel for the text is fuel for every word and
every gap. -/
def quotedWords? (single : Bool) : Nat → List Char → Cursor → Option (List Char × Cursor)
  | 0, _, _ => none
  | fuel + 1, text, cursor =>
    if cursor.seesDocumentMarker || cursor.rest.isEmpty then none
    else
      match quotedWord? single (fuel + 1) cursor.rest with
      | none => none
      | some word =>
        let text := text ++ word.text
        let cursor := cursor.advance word.length
        if word.ending == .quote then some (text, cursor.advance 1)
        else
          let continued :=
            if word.ending == .escapedBreak then
              cursor.lineBreak?.map fun (_, next) => (Gap.breaks none [], next)
            else some (Gap.blanks [], cursor)
          match continued with
          | none => none
          | some (gap, cursor) =>
            match gap.read? (fun _ _ => true) (fuel + 1) cursor with
            | none => none
            | some (gap, cursor) => quotedWords? single fuel (text ++ gap.text) cursor

def quoted? (single : Bool) (cursor : Cursor) : Option (String × Cursor) :=
  (quotedWords? single (cursor.rest.length + 1) [] (cursor.advance 1)).map
    fun (text, behind) => (String.ofList text, behind)

/-- What becomes of the line breaks at the end of a block scalar. -/
inductive Chomping where
  | strip
  | clip
  | keep
  deriving DecidableEq

structure BlockHeader where
  chomping : Chomping
  /-- The indentation against the surrounding block, if it is given. -/
  increment : Option Nat

def chomping? : List Char → Option (Chomping × List Char)
  | '+' :: rest => some (.keep, rest)
  | '-' :: rest => some (.strip, rest)
  | _ => none

/-- An indentation digit, if there is one; it is not zero. -/
def increment? : List Char → Option (Option Nat × List Char)
  | c :: rest =>
    if c == '0' then none
    else if '1' ≤ c && c ≤ '9' then some (some (c.toNat - '0'.toNat), rest)
    else some (none, c :: rest)
  | [] => some (none, [])

/-- The indicators behind `|` or `>`, in either order. -/
def blockHeader? (text : List Char) : Option (BlockHeader × List Char) :=
  match chomping? text with
  | some (chomping, rest) =>
    (increment? rest).map fun (increment, behind) => (⟨chomping, increment⟩, behind)
  | none =>
    match increment? text with
    | none => none
    | some (none, rest) => some (⟨.clip, none⟩, rest)
    | some (some increment, rest) =>
      match chomping? rest with
      | some (chomping, behind) => some (⟨chomping, some increment⟩, behind)
      | none => some (⟨.clip, some increment⟩, rest)

/-- Skip the indentation of a line, at most `indent` blanks if that is known. -/
def skipIndent (indent : Option Nat) (cursor : Cursor) : Cursor :=
  let blanks := (cursor.rest.takeWhile (· == ' ')).length
  match indent with
  | none => cursor.advance blanks
  | some column => cursor.advance (min blanks (column - cursor.column))

/-- Read empty lines up to a line with content: their breaks, the greatest indentation on
the way, and the cursor behind the indentation. -/
def emptyLines? (indent : Option Nat) :
    Nat → List Char → Nat → Cursor → Option (List Char × Nat × Cursor)
  | 0, _, _, _ => none
  | fuel + 1, breaks, deepest, cursor =>
    let cursor := skipIndent indent cursor
    let deepest := max deepest cursor.column
    if cursor.sees '\t' && indent.all (cursor.column < ·) then none
    else
      match cursor.lineBreak? with
      | some (c, next) => emptyLines? indent fuel (breaks ++ [c]) deepest next
      | none => some (breaks, deepest, cursor)

/-- What has been read of a block scalar: its text without the last breaks, the break
behind its last line, those of the empty lines after it, and whether the line began with
a blank. -/
structure BlockText where
  text : List Char
  lastBreak : Option Char
  emptyBreaks : List Char
  blankStart : Bool

/-- The text with its breaks, ready for a line that begins with a blank or not. -/
def BlockText.joined (literal : Bool) (block : BlockText) (blankStart : Bool) : List Char :=
  if !literal && block.lastBreak == some '\n' && !block.blankStart && !blankStart then
    block.text ++ (if block.emptyBreaks.isEmpty then [' '] else block.emptyBreaks)
  else block.text ++ block.lastBreak.toList ++ block.emptyBreaks

/-- Read the lines at column `indent`. Fuel for the text is fuel for the empty lines behind
each of them. -/
def blockLines? (literal : Bool) (indent : Nat) :
    Nat → BlockText → Cursor → Option (BlockText × Cursor)
  | 0, _, _ => none
  | fuel + 1, block, cursor =>
    if cursor.column != indent || cursor.rest.isEmpty then some (block, cursor)
    else
      let blankStart := cursor.peek?.any isBlank
      let line := cursor.rest.takeWhile (!isBreak ·)
      let text := block.joined literal blankStart ++ line
      let behind := cursor.advance line.length
      let (lastBreak, next) :=
        match behind.lineBreak? with
        | some (c, next) => (some c, next)
        | none => (none, behind)
      match emptyLines? (some indent) (fuel + 1) [] 0 next with
      | none => none
      | some (breaks, _, next) => blockLines? literal indent fuel ⟨text, lastBreak, breaks, blankStart⟩ next

/-- A block scalar at its indicator. `outer` is the indentation around it, -1 outside all
blocks. -/
def block? (literal : Bool) (outer : Int) (cursor : Cursor) : Option (String × Cursor) := do
  let (header, rest) ← blockHeader? (cursor.rest.drop 1)
  let next ← (cursor.advanceTo rest).endLine?
  let given : Option Nat := header.increment.map fun increment => (max outer 0).toNat + increment
  let (breaks, deepest, next) ← emptyLines? given (next.rest.length + 1) [] 0 next
  let indent := given.getD (max deepest (max (outer + 1).toNat 1))
  let (block, behind) ← blockLines? literal indent (next.rest.length + 1) ⟨[], none, breaks, false⟩ next
  let tail :=
    match header.chomping with
    | .strip => []
    | .clip => block.lastBreak.toList
    | .keep => block.lastBreak.toList ++ block.emptyBreaks
  return (String.ofList (block.text ++ tail), behind)

end VoiceGrammar.Yaml
