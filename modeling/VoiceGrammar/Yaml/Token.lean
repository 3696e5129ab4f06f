/-
The tokens of a YAML text.

Indentation shows in tokens of its own: a block collection begins with a start token and
ends with a `blockEnd`, both inferred from columns. A mapping key often shows only by the
colon behind it. The lexer therefore remembers, for each level of brackets, the place
where such a key may have begun; when a colon follows, it puts the key token, and if need
be the start of the mapping, at that place. The key has to end on its line within 1024
bytes. A key at the column of the current block must be followed by a colon.

A byte order mark at the start of a line is passed over but takes a column. The text of a
tag ends before a zero octet.
-/
import VoiceGrammar.Yaml.Scalar

namespace VoiceGrammar.Yaml

set_option autoImplicit false

inductive Token where
  | versionDirective (major minor : Nat)
  | tagDirective (handle stem : String)
  | documentStart
  | documentEnd
  | blockSequenceStart
  | blockMappingStart
  | blockEnd
  | flowSequenceStart
  | flowSequenceEnd
  | flowMappingStart
  | flowMappingEnd
  | blockEntry
  | flowEntry
  | key
  | value
  | aliasOf (name : String)
  | anchor (name : String)
  | tag (handle suffix : String)
  /-- The text of a scalar, and whether it stands without quotes or block indicator. -/
  | scalar (plain : Bool) (text : String)
  deriving DecidableEq, Repr

/-- A place where a key may have begun. -/
structure KeyPlace where
  required : Bool
  /-- The number of tokens before it. -/
  tokens : Nat
  offset : Nat
  line : Nat
  column : Nat

structure Lexer where
  cursor : Cursor
  /-- The tokens read, newest first, and their number. -/
  tokens : List Token
  count : Nat
  /-- The column of the current block, -1 outside all blocks, and those around it. -/
  indent : Int
  outerIndents : List Int
  /-- For each level of brackets, innermost first, where a key may have begun. -/
  keys : List (Option KeyPlace)
  /-- Whether a key may begin at the next token. -/
  keyAllowed : Bool

namespace Lexer

def start (text : List Char) : Lexer where
  cursor := .start text
  tokens := []
  count := 0
  indent := -1
  outerIndents := []
  keys := [none]
  keyAllowed := true

/-- Inside brackets indentation does not count. -/
def inFlow (lexer : Lexer) : Bool :=
  !(lexer.keys.drop 1).isEmpty

def emit (token : Token) (lexer : Lexer) : Lexer :=
  { lexer with tokens := token :: lexer.tokens, count := lexer.count + 1 }

/-- Put a token where the first `place` tokens end. -/
def emitAt (token : Token) (place : Nat) (lexer : Lexer) : Lexer :=
  let later := lexer.count - place
  { lexer with
    tokens := lexer.tokens.take later ++ token :: lexer.tokens.drop later
    count := lexer.count + 1 }

def moveTo (cursor : Cursor) (lexer : Lexer) : Lexer :=
  { lexer with cursor := cursor }

/-- Emit a token and skip its characters. -/
def take (token : Token) (length : Nat) (lexer : Lexer) : Lexer :=
  (lexer.emit token).moveTo (lexer.cursor.advance length)

def allowKey (allowed : Bool) (lexer : Lexer) : Lexer :=
  { lexer with keyAllowed := allowed }

/-- Give up the place where a key may have begun at the current level. A required key must
not be given up. -/
def dropKey? (lexer : Lexer) : Option Lexer :=
  match lexer.keys with
  | some place :: outer => if place.required then none else some { lexer with keys := none :: outer }
  | _ => some lexer

/-- Note that a key may begin here. -/
def markKey? (lexer : Lexer) : Option Lexer :=
  if lexer.keyAllowed then do
    let lexer ← lexer.dropKey?
    let place : KeyPlace := {
      required := !lexer.inFlow && lexer.indent == lexer.cursor.column
      tokens := lexer.count
      offset := lexer.cursor.offset
      line := lexer.cursor.line
      column := lexer.cursor.column }
    return { lexer with keys := some place :: lexer.keys.drop 1 }
  else some lexer

/-- The longest text that can be a key, in bytes. -/
def maxKeyLength : Nat := 1024

/-- Give up the place at the current level if it is too far behind. What is too far behind
stays so, so an outer place is soon enough given up when the brackets have been closed. -/
def dropStaleKey? (lexer : Lexer) : Option Lexer :=
  match lexer.keys with
  | some place :: _ =>
    if place.line < lexer.cursor.line || place.offset + maxKeyLength < lexer.cursor.offset then
      lexer.dropKey?
    else some lexer
  | _ => some lexer

/-- Begin a block collection at a column, unless one begins there or further right
already. -/
def openBlock (column : Nat) (token : Token) (place : Nat) (lexer : Lexer) : Lexer :=
  if !lexer.inFlow && lexer.indent < column then
    { lexer.emitAt token place with
      indent := column
      outerIndents := lexer.indent :: lexer.outerIndents }
  else lexer

/-- End the block collections that begin to the right of a column. -/
def closeBlocksFrom : List Int → Int → Lexer → Lexer
  | [], _, lexer => lexer
  | outer :: further, column, lexer =>
    if lexer.indent > column then
      closeBlocksFrom further column
        { lexer.emit .blockEnd with indent := outer, outerIndents := further }
    else lexer

def closeBlocks (column : Int) (lexer : Lexer) : Lexer :=
  if lexer.inFlow then lexer else closeBlocksFrom lexer.outerIndents column lexer

/-- Skip blanks, comments and line breaks. In a block a tab is no blank where a key may
begin; behind a line break one may. -/
def skipToToken : Nat → Lexer → Lexer
  | 0, lexer => lexer
  | fuel + 1, lexer =>
    let cursor := lexer.cursor
    let cursor :=
      if cursor.column == 0 && cursor.sees byteOrderMark then cursor.advance 1 else cursor
    let tabs := lexer.inFlow || !lexer.keyAllowed
    let cursor := (cursor.skipWhile fun c => c == ' ' || (tabs && c == '\t')).skipComment
    match cursor.lineBreak? with
    | some (_, next) =>
      skipToToken fuel ((lexer.allowKey (lexer.keyAllowed || !lexer.inFlow)).moveTo next)
    | none => lexer.moveTo cursor

/-- Letters, digits, `_` and `-` of ASCII. -/
def isWordChar (c : Char) : Bool :=
  ('0' ≤ c && c ≤ '9') || ('A' ≤ c && c ≤ 'Z') || ('a' ≤ c && c ≤ 'z') || c == '_' || c == '-'

/-- The name of an anchor or alias behind its sign. -/
def anchorName? (text : List Char) : Option (String × List Char) :=
  let name := text.takeWhile isWordChar
  let rest := text.dropWhile isWordChar
  let ended := startsBlank rest ||
    rest.head?.any fun c => ['?', ':', ',', ']', '\x7d', '%', '@', '\x60'].contains c
  if name.isEmpty || !ended then none else some (String.ofList name, rest)

/-- Characters of a tag; some stand only in tags in angle brackets and in directives. -/
def isTagChar (verbatim : Bool) (c : Char) : Bool :=
  isWordChar c ||
    [';', '/', '?', ':', '@', '&', '=', '+', '$', '.', '%', '!', '~', '*', '\'', '(', ')'].contains c ||
    (verbatim && (c == ',' || c == '[' || c == ']'))

/-- How many octets a character takes whose first octet this is. -/
def octetCount? (octet : Nat) : Option Nat :=
  if octet < 0x80 then some 1
  else if 0xC0 ≤ octet && octet < 0xE0 then some 2
  else if 0xE0 ≤ octet && octet < 0xF0 then some 3
  else if 0xF0 ≤ octet && octet < 0xF8 then some 4
  else none

/-- Octets written as `%` and two digits. -/
def octets? : Nat → List Char → Option (List Nat × List Char)
  | 0, text => some ([], text)
  | count + 1, '%' :: a :: b :: rest => do
    let octet ← Text.hexValue? [a, b]
    let (octets, behind) ← octets? count rest
    return (octet :: octets, behind)
  | _ + 1, _ => none

/-- The characters of a tag, with escaped octets as characters of that code. The octets of
one character have to follow each other. -/
def tagChars? (verbatim : Bool) : Nat → List Char → Option (List Char × List Char)
  | 0, _ => none
  | _ + 1, [] => some ([], [])
  | fuel + 1, c :: rest =>
    if c == '%' then do
      let (first, _) ← octets? 1 (c :: rest)
      let (octets, behind) ← octets? (← octetCount? (first.headD 0)) (c :: rest)
      if !(octets.drop 1).all fun octet => 0x80 ≤ octet && octet < 0xC0 then none
      let (chars, behind) ← tagChars? verbatim fuel behind
      return (octets.map Char.ofNat ++ chars, behind)
    else if isTagChar verbatim c then
      (tagChars? verbatim fuel rest).map fun (chars, behind) => (c :: chars, behind)
    else some ([], c :: rest)

def tagText? (verbatim : Bool) (text : List Char) : Option (List Char × List Char) :=
  tagChars? verbatim (text.length + 1) text

/-- The part of a tag that counts: all up to a zero octet. -/
def tagPart (chars : List Char) : List Char :=
  chars.takeWhile (· != '\x00')

/-- A handle: `!`, a word and, unless the word stands at the end, another `!`. -/
def tagHandle? : List Char → Option (List Char × List Char)
  | '!' :: text =>
    let word := text.takeWhile isWordChar
    match text.dropWhile isWordChar with
    | '!' :: rest => some ('!' :: word ++ ['!'], rest)
    | rest => some ('!' :: word, rest)
  | _ => none

/-- The handle and the suffix of a tag at the start of the text. -/
def tag? (inFlow : Bool) (text : List Char) : Option (Token × List Char) := do
  let (handle, suffix, rest) ←
    match text with
    | '!' :: '<' :: rest => do
      let (suffix, rest) ← tagText? true rest
      match rest with
      | '>' :: behind => if suffix.isEmpty then none else some ([], tagPart suffix, behind)
      | _ => none
    | _ => do
      let (handle, rest) ← tagHandle? text
      let (suffix, behind) ← tagText? false rest
      if handle.length > 1 && handle.getLast? == some '!' then
        if suffix.isEmpty then none else some (handle, tagPart suffix, behind)
      else
        let suffix := tagPart (handle.drop 1 ++ suffix)
        some (if suffix.isEmpty then ([], ['!'], behind) else (['!'], suffix, behind))
  if startsBlank rest || (inFlow && rest.head? == some ',') then
    return (.tag (String.ofList handle) (String.ofList suffix), rest)
  else none

/-- A part of a version number, of at most nine digits. -/
def versionNumber? (text : List Char) : Option (Nat × List Char) :=
  let digits := text.takeWhile fun c => '0' ≤ c && c ≤ '9'
  if digits.isEmpty || digits.length > 9 then none
  else some (digits.foldl (fun value c => 10 * value + (c.toNat - '0'.toNat)) 0,
    text.drop digits.length)

/-- A directive behind its percent sign, up to the end of its arguments. -/
def directive? (text : List Char) : Option (Token × List Char) :=
  let name := String.ofList (text.takeWhile isWordChar)
  let arguments := text.dropWhile isWordChar
  let skip (text : List Char) := text.dropWhile isBlank
  if !startsBlank arguments then none
  else if name == "YAML" then do
    let (major, rest) ← versionNumber? (skip arguments)
    match rest with
    | '.' :: rest =>
      let (minor, behind) ← versionNumber? rest
      return (.versionDirective major minor, behind)
    | _ => none
  else if name == "TAG" then do
    let (handle, rest) ← tagHandle? (skip arguments)
    if handle.length > 1 && handle.getLast? != some '!' then none
    if !rest.head?.any isBlank then none
    let (stem, behind) ← tagText? true (skip rest)
    if stem.isEmpty || !startsBlank behind then none
    return (.tagDirective (String.ofList handle) (String.ofList (tagPart stem)), behind)
  else none

/-- A directive at its percent sign. -/
def readDirective? (lexer : Lexer) : Option Lexer := do
  let lexer ← (lexer.closeBlocks (-1)).dropKey?
  let (token, rest) ← directive? (lexer.cursor.rest.drop 1)
  let next ← (lexer.cursor.advanceTo rest).endLine?
  return ((lexer.allowKey false).emit token).moveTo next

def readMarker? (token : Token) (lexer : Lexer) : Option Lexer := do
  let lexer ← (lexer.closeBlocks (-1)).dropKey?
  return (lexer.allowKey false).take token 3

def readOpening? (token : Token) (lexer : Lexer) : Option Lexer := do
  let lexer ← lexer.markKey?
  return ({ lexer with keys := none :: lexer.keys }.allowKey true).take token 1

def readClosing? (token : Token) (lexer : Lexer) : Option Lexer := do
  let lexer ← lexer.dropKey?
  let keys := if lexer.inFlow then lexer.keys.drop 1 else lexer.keys
  return ({ lexer with keys := keys }.allowKey false).take token 1

def readFlowEntry? (lexer : Lexer) : Option Lexer := do
  let lexer ← lexer.dropKey?
  return (lexer.allowKey true).take .flowEntry 1

/-- In a block an entry or a key begins only where a key may begin. -/
def readBlockIndicator? (collection token : Token) (allowed : Bool) (lexer : Lexer) :
    Option Lexer :=
  if !lexer.inFlow && !lexer.keyAllowed then none
  else do
    let lexer ← (lexer.openBlock lexer.cursor.column collection lexer.count).dropKey?
    return (lexer.allowKey allowed).take token 1

/-- The colon before a value: the key may stand behind, at the place that was kept for it,
or may have been announced. -/
def readValue? (lexer : Lexer) : Option Lexer :=
  match lexer.keys with
  | some place :: outer =>
    let lexer := (lexer.emitAt .key place.tokens).openBlock place.column .blockMappingStart place.tokens
    some (({ lexer with keys := none :: outer }.allowKey false).take .value 1)
  | _ =>
    if lexer.inFlow then some ((lexer.allowKey false).take .value 1)
    else if !lexer.keyAllowed then none
    else
      let lexer := lexer.openBlock lexer.cursor.column .blockMappingStart lexer.count
      some ((lexer.allowKey true).take .value 1)

/-- A token that may begin a key and is not followed by another key. -/
def readKeyPart? (read : Cursor → Option (Token × Cursor)) (lexer : Lexer) : Option Lexer := do
  let lexer ← lexer.markKey?
  let (token, next) ← read lexer.cursor
  return ((lexer.allowKey false).emit token).moveTo next

def readPlain? (lexer : Lexer) : Option Lexer := do
  let lexer ← lexer.markKey?
  let (text, broke, next) ← plain? lexer.inFlow (lexer.indent + 1).toNat lexer.cursor
  return ((lexer.allowKey broke).emit (.scalar true text)).moveTo next

def readBlockScalar? (literal : Bool) (lexer : Lexer) : Option Lexer := do
  let lexer ← lexer.dropKey?
  let (text, next) ← block? literal lexer.indent lexer.cursor
  return ((lexer.allowKey true).emit (.scalar false text)).moveTo next

def readAnchor? (token : String → Token) : Lexer → Option Lexer :=
  readKeyPart? fun cursor => do
    let (name, rest) ← anchorName? (cursor.rest.drop 1)
    return (token name, cursor.advanceTo rest)

def readTag? (lexer : Lexer) : Option Lexer :=
  lexer.readKeyPart? fun cursor => do
    let (token, rest) ← tag? lexer.inFlow cursor.rest
    return (token, cursor.advanceTo rest)

def readQuoted? (single : Bool) : Lexer → Option Lexer :=
  readKeyPart? fun cursor => do
    let (text, next) ← quoted? single cursor
    return (.scalar false text, next)

/-- Characters that no plain scalar begins with, unless it is `-`, `?` or `:` and joined to
what follows. -/
def isIndicator (c : Char) : Bool :=
  ['-', '?', ':', ',', '[', ']', '\x7b', '\x7d', '#', '&', '*', '!', '|', '>', '\'', '"', '%', '@',
    '\x60'].contains c

/-- Whether a plain scalar begins here. -/
def startsPlain (inFlow : Bool) (c : Char) (rest : List Char) : Bool :=
  !(isBlank c || isBreak c || isIndicator c) ||
    (c == '-' && !rest.head?.any isBlank) ||
    (!inFlow && (c == '?' || c == ':') && !startsBlank rest)

/-- Read the next token, behind fewer line breaks than `lines`. At the end of the text the
blocks end, and there is none. -/
def next? (lines : Nat) (lexer : Lexer) : Option (Lexer × Bool) := do
  let lexer := skipToToken lines lexer
  let lexer := (← lexer.dropStaleKey?).closeBlocks lexer.cursor.column
  let cursor := lexer.cursor
  match cursor.rest with
  | [] =>
    let lexer ← (lexer.closeBlocks (-1)).dropKey?
    return (lexer, false)
  | c :: rest =>
    let lexer ←
      if cursor.column == 0 && c == '%' then lexer.readDirective?
      else if cursor.seesMarker '-' then lexer.readMarker? .documentStart
      else if cursor.seesMarker '.' then lexer.readMarker? .documentEnd
      else if c == '[' then lexer.readOpening? .flowSequenceStart
      else if c == '\x7b' then lexer.readOpening? .flowMappingStart
      else if c == ']' then lexer.readClosing? .flowSequenceEnd
      else if c == '\x7d' then lexer.readClosing? .flowMappingEnd
      else if c == ',' then lexer.readFlowEntry?
      else if cursor.seesAlone '-' then
        lexer.readBlockIndicator? .blockSequenceStart .blockEntry true
      else if c == '?' && (lexer.inFlow || startsBlank rest) then
        lexer.readBlockIndicator? .blockMappingStart .key (!lexer.inFlow)
      else if c == ':' && (lexer.inFlow || startsBlank rest) then lexer.readValue?
      else if c == '*' then lexer.readAnchor? .aliasOf
      else if c == '&' then lexer.readAnchor? .anchor
      else if c == '!' then lexer.readTag?
      else if c == '|' && !lexer.inFlow then lexer.readBlockScalar? true
      else if c == '>' && !lexer.inFlow then lexer.readBlockScalar? false
      else if c == '\'' then lexer.readQuoted? true
      else if c == '"' then lexer.readQuoted? false
      else if startsPlain lexer.inFlow c rest then lexer.readPlain?
      else none
    return (lexer, true)

/-- Read all tokens, each of which takes at least one character and one unit of fuel. -/
def run? : Nat → Lexer → Option (List Token)
  | 0, _ => none
  | fuel + 1, lexer => do
    let (lexer, more) ← lexer.next? (fuel + 1)
    if more then run? fuel lexer else return lexer.tokens.reverse

end Lexer

/-- The tokens of a text. -/
def Token.ofText? (text : String) : Option (List Token) :=
  let chars := text.toList
  if chars.all isPrintable then Lexer.run? (chars.length + 1) (.start chars) else none

end VoiceGrammar.Yaml
