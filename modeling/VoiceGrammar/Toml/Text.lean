/-
Texts in TOML: four ways to quote.

A text stands between quotes or apostrophes, one of them on a single line or three of
them over any number of lines. Between quotes a backslash starts an escape, between
apostrophes every character stands for itself. A line break right behind three opening
marks does not count, and a backslash at the end of a line hides the break and all
blanks behind it. Line breaks are taken to be single characters here.
-/
import VoiceGrammar.Text.Hexadecimal

namespace VoiceGrammar.Toml

set_option autoImplicit false

def isBlank (c : Char) : Bool :=
  c == ' ' || c == '\t'

def isSpace (c : Char) : Bool :=
  isBlank c || c == '\n'

/-- Characters that may stand in texts and comments: all but the control characters, of
which only the tab may. -/
def isPlain (c : Char) : Bool :=
  c == '\t' || (c.toNat ≥ 0x20 && c.toNat != 0x7F)

def escapeSign? : Char → Option Char
  | 'b' => some '\x08'
  | 't' => some '\t'
  | 'n' => some '\n'
  | 'f' => some '\x0c'
  | 'r' => some '\r'
  | '"' => some '"'
  | '\\' => some '\\'
  | _ => none

/-- The character whose code the next `count` digits give. -/
def code? (count : Nat) (text : List Char) : Option (Char × List Char) := do
  if text.length < count then none
  let c ← Text.charOfCode? (← Text.hexValue? (text.take count))
  return (c, text.drop count)

/-- The character that an escape denotes whose backslash stands before the text. -/
def escape? : List Char → Option (Char × List Char)
  | [] => none
  | 'u' :: text => code? 4 text
  | 'U' :: text => code? 8 text
  | sign :: text => (escapeSign? sign).map (·, text)

theorem code?_rest_length {count : Nat} {text rest : List Char} {c : Char}
    (found : code? count text = some (c, rest)) : rest.length ≤ text.length := by
  unfold code? at found
  split at found
  · simp at found
  · simp only [Option.pure_def, Option.bind_eq_bind, Option.bind_eq_some_iff,
      Option.some.injEq, Prod.mk.injEq] at found
    obtain ⟨_, _, _, _, _, behind⟩ := found
    rw [← behind, List.length_drop]
    omega

theorem escape?_rest_length {text rest : List Char} {c : Char}
    (found : escape? text = some (c, rest)) : rest.length < text.length := by
  unfold escape? at found
  split at found
  · simp at found
  · exact Nat.lt_succ_of_le (code?_rest_length found)
  · exact Nat.lt_succ_of_le (code?_rest_length found)
  · simp only [Option.map_eq_some_iff, Prod.mk.injEq] at found
    obtain ⟨_, _, _, behind⟩ := found
    rw [← behind]
    simp

/-- How a text is quoted. -/
structure Quoting where
  mark : Char
  escapes : Bool
  deriving DecidableEq, Repr

namespace Quoting

def quotes : Quoting := ⟨'"', true⟩

def apostrophes : Quoting := ⟨'\'', false⟩

/-- The quoting that a mark starts. -/
def ofMark? : Char → Option Quoting
  | '"' => some quotes
  | '\'' => some apostrophes
  | _ => none

/-- The text up to the closing mark on the same line, and what follows. -/
def line? (quoting : Quoting) (text : List Char) : Option (List Char × List Char) :=
  match text with
  | [] => none
  | c :: rest =>
    if c == quoting.mark then some ([], rest)
    else if quoting.escapes && c == '\\' then
      match _ : escape? rest with
      | none => none
      | some (escaped, behind) =>
        (quoting.line? behind).map fun (body, later) => (escaped :: body, later)
    else if isPlain c then (quoting.line? rest).map fun (body, later) => (c :: body, later)
    else none
termination_by text.length
decreasing_by
  · rename_i found
    exact Nat.lt_succ_of_lt (escape?_rest_length found)
  · simp

/-- What follows three closing marks. Up to two marks before them belong to the text. -/
def close? (mark : Char) (text : List Char) : Option (List Char × List Char) :=
  let run := (text.takeWhile (· == mark)).length
  if run < 3 then none
  else some (List.replicate (min (run - 3) 2) mark, text.drop (3 + min (run - 3) 2))

/-- A line ends behind a backslash. -/
def hidesBreak (behind : List Char) : Bool :=
  (behind.dropWhile isBlank).head? == some '\n'

/-- The text up to three closing marks, and what follows. -/
def lines? (quoting : Quoting) (text : List Char) : Option (List Char × List Char) :=
  match close? quoting.mark text with
  | some closed => some closed
  | none =>
    match text with
    | [] => none
    | c :: rest =>
      if quoting.escapes && c == '\\' then
        if hidesBreak rest then quoting.lines? (rest.dropWhile isSpace)
        else
          match _ : escape? rest with
          | none => none
          | some (escaped, behind) =>
            (quoting.lines? behind).map fun (body, later) => (escaped :: body, later)
      else if isPlain c || c == '\n' then
        (quoting.lines? rest).map fun (body, later) => (c :: body, later)
      else none
termination_by text.length
decreasing_by
  · exact Nat.lt_succ_of_le (List.dropWhile_suffix isSpace).length_le
  · rename_i found
    exact Nat.lt_succ_of_lt (escape?_rest_length found)
  · simp

/-- The text whose first mark has been read. -/
def text? (quoting : Quoting) : List Char → Option (List Char × List Char)
  | a :: b :: rest =>
    if a == quoting.mark && b == quoting.mark then
      match rest with
      | '\n' :: body => quoting.lines? body
      | _ => quoting.lines? rest
    else quoting.line? (a :: b :: rest)
  | text => quoting.line? text

end Quoting

end VoiceGrammar.Toml
