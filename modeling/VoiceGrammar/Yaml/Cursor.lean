/-
Positions in a YAML text.

A cursor is the text still to be read with its place: the line, the column in it, and
the offset from the start of the text. Columns count characters, offsets count the bytes
of UTF-8. Five characters break lines, a carriage return and a line feed together once;
in scalars the first three kinds and the pair read as a line feed.
-/
namespace VoiceGrammar.Yaml

set_option autoImplicit false

/-- Characters that a text may hold at all. -/
def isPrintable (c : Char) : Bool :=
  let code := c.toNat
  code == 0x9 || code == 0xA || code == 0xD || (0x20 ≤ code && code ≤ 0x7E) || code == 0x85 ||
    (0xA0 ≤ code && code ≤ 0xD7FF) || (0xE000 ≤ code && code ≤ 0xFFFD) || 0x10000 ≤ code

def byteOrderMark : Char := '\ufeff'

def isBlank (c : Char) : Bool :=
  c == ' ' || c == '\t'

def isBreak (c : Char) : Bool :=
  c == '\n' || c == '\r' || c == '\x85' || c == '\u2028' || c == '\u2029'

/-- Whether a text ends or goes on with a blank or a line break. -/
def startsBlank : List Char → Bool
  | [] => true
  | c :: _ => isBlank c || isBreak c

/-- The length of a text in UTF-8. -/
def byteCount (text : List Char) : Nat :=
  text.foldl (fun count c => count + c.utf8Size) 0

structure Cursor where
  rest : List Char
  offset : Nat
  line : Nat
  column : Nat

namespace Cursor

def start (text : List Char) : Cursor := ⟨text, 0, 0, 0⟩

def peek? (cursor : Cursor) : Option Char :=
  cursor.rest.head?

/-- The next character is `c`. -/
def sees (cursor : Cursor) (c : Char) : Bool :=
  cursor.peek? == some c

/-- The next character is `c`, and a blank, a line break or the end follows it. -/
def seesAlone (cursor : Cursor) (c : Char) : Bool :=
  cursor.sees c && startsBlank (cursor.rest.drop 1)

/-- Move on by some characters of the line. -/
def advance (cursor : Cursor) (count : Nat) : Cursor where
  rest := cursor.rest.drop count
  offset := cursor.offset + byteCount (cursor.rest.take count)
  line := cursor.line
  column := cursor.column + count

/-- Move on to where `rest`, a later part of the line, begins. -/
def advanceTo (cursor : Cursor) (rest : List Char) : Cursor :=
  cursor.advance (cursor.rest.length - rest.length)

/-- Move on behind characters that are all on the line. -/
def skipWhile (cursor : Cursor) (keep : Char → Bool) : Cursor :=
  cursor.advance (cursor.rest.takeWhile keep).length

/-- The line break at the cursor as it reads in a scalar, and the next line. -/
def lineBreak? (cursor : Cursor) : Option (Char × Cursor) :=
  match cursor.rest with
  | '\r' :: '\n' :: rest => some ('\n', ⟨rest, cursor.offset + 2, cursor.line + 1, 0⟩)
  | c :: rest =>
    if isBreak c then
      let text := if c == '\u2028' || c == '\u2029' then c else '\n'
      some (text, ⟨rest, cursor.offset + c.utf8Size, cursor.line + 1, 0⟩)
    else none
  | [] => none

/-- Three times `c` alone at the start of a line: `---` or `...`. -/
def seesMarker (cursor : Cursor) (c : Char) : Bool :=
  cursor.column == 0 && cursor.rest.take 3 == [c, c, c] && startsBlank (cursor.rest.drop 3)

def seesDocumentMarker (cursor : Cursor) : Bool :=
  cursor.seesMarker '-' || cursor.seesMarker '.'

/-- Skip a comment, if there is one. -/
def skipComment (cursor : Cursor) : Cursor :=
  if cursor.sees '#' then cursor.skipWhile (!isBreak ·) else cursor

/-- Skip blanks and a comment; the line has to end there. -/
def endLine? (cursor : Cursor) : Option Cursor :=
  let behind := (cursor.skipWhile isBlank).skipComment
  match behind.lineBreak? with
  | some (_, next) => some next
  | none => if behind.rest.isEmpty then some behind else none

end Cursor

end VoiceGrammar.Yaml
