/-
Slot references in a phrase.

A phrase is literal text with references `$tag:name` in it. A reference reads the
longest run of tag characters, a colon and the longest run of name characters;
both runs are non-empty, and no name occurs twice in a phrase. Brackets `( )` and
`[ ]` group words that may be left out or chosen between; the two kinds share one
depth, and a reference read at a depth above zero is optional. Brackets need not
match: a closer outside every group is reported and skipped, a group that is
still open at the end is reported there.

A `Scan` is the state of reading one phrase. `Scan.next` reads up to and including
the next reference, `Scan.drain` all of them. Reading ends at the first fault.
-/
import VoiceGrammar.Event
import VoiceGrammar.Text.Alphanumeric

namespace VoiceGrammar

set_option autoImplicit false

/-- What can be wrong with a phrase of a grammar. -/
inductive PhraseError where
  /-- A `$` that no tag, colon and name follow. -/
  | malformedReference (phrase : String)
  /-- The variable `name` is referred to twice. -/
  | repeatedVariable (phrase name : String)
  /-- The tag of variable `name` is neither built in nor a declared slot. -/
  | unknownSlotType (phrase name tag : String)
  deriving DecidableEq, Repr

def PhraseError.message : PhraseError → String
  | malformedReference phrase =>
    "malformed slot reference in phrase '" ++ phrase ++ "': expected '$<type>:<name>'"
  | repeatedVariable phrase name =>
    "phrase '" ++ phrase ++ "' contains duplicate variable " ++ name
  | unknownSlotType phrase name tag =>
    "phrase '" ++ phrase ++ "' has variable " ++ name ++ " with slot type " ++ tag ++
      " that does not exist"

/-- One slot reference of a phrase, as written. -/
structure Occurrence where
  tag : String
  name : String
  optional : Bool
  deriving DecidableEq, Repr

namespace Phrase

def isNameChar (c : Char) : Bool :=
  Text.isAlphanumeric c || c == '_'

def isTagChar (c : Char) : Bool :=
  Text.isAlphanumeric c || c == '_' || c == '.'

def isOpener (c : Char) : Bool :=
  c == '(' || c == '['

def isCloser (c : Char) : Bool :=
  c == ')' || c == ']'

/-- Literal text up to the next `$`: the stray closers in it, the depth behind it, and
the text behind the `$`, if there is one. -/
def literal : Nat → List Char → List Char × Nat × Option (List Char)
  | depth, [] => ([], depth, none)
  | depth, c :: text =>
    if c == '$' then ([], depth, some text)
    else if isOpener c then literal (depth + 1) text
    else if isCloser c then
      match depth with
      | 0 =>
        let (closers, final, rest) := literal 0 text
        (c :: closers, final, rest)
      | outer + 1 => literal outer text
    else literal depth text

/-- The tag and the name of the reference whose `$` stands before the text, and the
text behind it. -/
def reference? (text : List Char) : Option (String × String × List Char) :=
  match text.dropWhile isTagChar with
  | ':' :: behind =>
    let tag := text.takeWhile isTagChar
    let name := behind.takeWhile isNameChar
    if tag.isEmpty || name.isEmpty then none
    else some (String.ofList tag, String.ofList name, behind.dropWhile isNameChar)
  | _ => none

theorem literal_rest_length (text : List Char) (depth : Nat) (rest : List Char)
    (found : (literal depth text).2.2 = some rest) : rest.length < text.length := by
  induction text generalizing depth with
  | nil => simp [literal] at found
  | cons c text ih =>
    unfold literal at found
    split at found
    · simp only [Option.some.injEq] at found
      subst found
      simp
    · split at found
      · exact Nat.lt_succ_of_lt (ih _ found)
      · split at found
        · cases depth with
          | zero => exact Nat.lt_succ_of_lt (ih _ found)
          | succ outer => exact Nat.lt_succ_of_lt (ih _ found)
        · exact Nat.lt_succ_of_lt (ih _ found)

theorem dropWhile_length_le (keep : Char → Bool) (text : List Char) :
    (text.dropWhile keep).length ≤ text.length :=
  (List.dropWhile_suffix keep).length_le

theorem reference?_rest_length {text : List Char} {tag name : String} {rest : List Char}
    (found : reference? text = some (tag, name, rest)) : rest.length ≤ text.length := by
  unfold reference? at found
  split at found
  · rename_i behind colon
    dsimp only at found
    split at found
    · simp at found
    · simp only [Option.some.injEq, Prod.mk.injEq] at found
      have shorter := dropWhile_length_le isNameChar behind
      have tagged := dropWhile_length_le isTagChar text
      rw [colon, List.length_cons] at tagged
      rw [← found.2.2]
      omega
  · simp at found

end Phrase

/-- Where the reading of a phrase stands. -/
structure Scan where
  phrase : String
  /-- The text still to be read. -/
  rest : List Char
  depth : Nat
  /-- The names read so far, first to last. -/
  seen : List String
  done : Bool
  deriving DecidableEq, Repr

/-- What reading yields: an occurrence, or the fault that ends it. -/
abbrev ScanItem := Except PhraseError Occurrence

/-- One step of reading: what was reported on the way, what was found, and the state
behind it. -/
structure ScanStep where
  events : List Event
  item : Option ScanItem
  scan : Scan

namespace Scan

def start (phrase : String) : Scan where
  phrase := phrase
  rest := phrase.toList
  depth := 0
  seen := []
  done := false

/-- Read on to the next reference. -/
def next (scan : Scan) : ScanStep :=
  if scan.done then ⟨[], none, scan⟩
  else
    match Phrase.literal scan.depth scan.rest with
    | (closers, depth, none) =>
      let strays := closers.map (Event.unmatchedCloser scan.phrase)
      let unclosed := if depth > 0 then [Event.unclosedGroup scan.phrase depth] else []
      ⟨strays ++ unclosed, none, { scan with rest := [], depth := depth, done := true }⟩
    | (closers, depth, some text) =>
      let strays := closers.map (Event.unmatchedCloser scan.phrase)
      let stopped : Scan := { scan with rest := text, depth := depth, done := true }
      match Phrase.reference? text with
      | none => ⟨strays, some (.error (.malformedReference scan.phrase)), stopped⟩
      | some (tag, name, rest) =>
        if scan.seen.contains name then
          ⟨strays, some (.error (.repeatedVariable scan.phrase name)), stopped⟩
        else
          ⟨strays, some (.ok ⟨tag, name, depth > 0⟩),
            { scan with rest := rest, depth := depth, seen := scan.seen ++ [name] }⟩

theorem next_rest_length (scan : Scan) {occurrence : Occurrence}
    (found : scan.next.item = some (.ok occurrence)) :
    scan.next.scan.rest.length < scan.rest.length := by
  unfold next at found ⊢
  split at found
  · simp at found
  · rename_i reading
    rw [if_neg reading]
    split at found
    · simp at found
    · rename_i closers depth text literal
      dsimp only at found ⊢
      have shorter := Phrase.literal_rest_length scan.rest scan.depth text (by rw [literal])
      split at found
      · simp at found
      · rename_i tag name rest reference
        have behind := Phrase.reference?_rest_length reference
        split at found
        · simp at found
        · rename_i fresh
          rw [if_neg fresh]
          dsimp only
          omega

/-- Part of a reading in text order: something reported, an occurrence, or the fault that
ends it. -/
inductive Signal where
  | event (event : Event)
  | occurrence (occurrence : Occurrence)
  | fault (error : PhraseError)
  deriving DecidableEq, Repr

/-- Read to the end. -/
def drain (scan : Scan) : List Signal × Scan :=
  match found : scan.next.item with
  | none => (scan.next.events.map .event, scan.next.scan)
  | some (.error error) => (scan.next.events.map .event ++ [.fault error], scan.next.scan)
  | some (.ok occurrence) =>
    let (signals, final) := drain scan.next.scan
    (scan.next.events.map .event ++ .occurrence occurrence :: signals, final)
termination_by scan.rest.length
decreasing_by exact next_rest_length scan found

end Scan

namespace Phrase

/-- All that reading a phrase shows, in text order. -/
def signals (phrase : String) : List Scan.Signal :=
  (Scan.start phrase).drain.1

/-- The references of a phrase up to its first fault. -/
def occurrences (phrase : String) : List Occurrence :=
  (signals phrase).filterMap fun
    | .occurrence occurrence => some occurrence
    | _ => none

/-- The fault that ends the reading, if there is one. -/
def fault? (phrase : String) : Option PhraseError :=
  (signals phrase).findSome? fun
    | .fault error => some error
    | _ => none

/-- What reading a phrase reports. -/
def events (phrase : String) : List Event :=
  (signals phrase).filterMap fun
    | .event event => some event
    | _ => none

end Phrase

end VoiceGrammar
