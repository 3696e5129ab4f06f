/-
# A reader of bytes

A reader that keeps no copy of the text still to be read knows it by an offset, the number of
bytes that it has passed. `Cursor` is such a reader. It takes slices of the phrase, and there is
no slice at an offset inside a character or behind the end (`Text.before?`, `Text.behind?`). It
moves on in two ways: over literal text by the size of each character, over a reference by the
sizes of its tag, its colon and its name. Its counters are bounded by the size of the phrase
(`Cursor.move?`). Where a slice or a counter fails, it has no result.

A cursor that stands between two texts (`Cursor.Between`) does not fail. It comes to stand behind
the literal text, the `$` or the reference that is in front of it (`Cursor.skip_plain`,
`Cursor.reference_of_body`, `Cursor.reference_of_none`).
-/
import VoiceGrammar.Proofs.Brackets

namespace VoiceGrammar

set_option autoImplicit false

/-! ## Slices of a text -/

namespace Text

/-- How many bytes a text takes up. -/
def size (text : List Char) : Nat :=
  (String.ofList text).utf8ByteSize

@[simp] theorem size_nil : size [] = 0 := rfl

@[simp] theorem size_append (text more : List Char) :
    size (text ++ more) = size text + size more := by
  rw [size, String.ofList_append, String.utf8ByteSize_append]
  rfl

@[simp] theorem size_cons (c : Char) (text : List Char) :
    size (c :: text) = c.utf8Size + size text := by
  have first : size [c] = c.utf8Size := by
    rw [size, ← String.singleton_eq_ofList, String.utf8ByteSize_singleton]
  rw [← List.singleton_append, size_append, first]

theorem size_toList (text : String) : size text.toList = text.utf8ByteSize := by
  rw [size, String.ofList_toList]

/-- Every character takes up a byte at least. -/
theorem length_le_size (text : List Char) : text.length ≤ size text := by
  induction text with
  | nil => exact Nat.le_refl 0
  | cons c text ih =>
      have positive := c.utf8Size_pos
      rw [List.length_cons, size_cons]
      omega

theorem isEmpty_ofList (text : List Char) : (String.ofList text).isEmpty = text.isEmpty := by
  rw [Bool.eq_iff_iff, String.isEmpty_iff, ← String.toList_eq_nil_iff, String.toList_ofList,
    List.isEmpty_iff]

/-- The text before an offset. There is none if the offset is inside a character or behind
the end. -/
def before? (text : String) (offset : Nat) : Option String :=
  if boundary : String.Pos.Raw.IsValid text ⟨offset⟩ then
    some (text.sliceTo (text.pos ⟨offset⟩ boundary)).copy
  else none

/-- The text behind an offset, under the same condition. -/
def behind? (text : String) (offset : Nat) : Option String :=
  if boundary : String.Pos.Raw.IsValid text ⟨offset⟩ then
    some (text.sliceFrom (text.pos ⟨offset⟩ boundary)).copy
  else none

/-- The second character takes up the bytes 1 and 2. -/
example : behind? "né" 1 = some "é" ∧ behind? "né" 2 = none ∧ behind? "né" 3 = some "" ∧
    behind? "né" 4 = none := by
  decide +kernel

/-- Where a text is cut, there is a boundary. -/
theorem isValid_of_split {text : String} {before rest : List Char}
    (split : text.toList = before ++ rest) : String.Pos.Raw.IsValid text ⟨size before⟩ := by
  rw [String.Pos.Raw.isValid_iff_exists_append]
  refine ⟨String.ofList before, String.ofList rest, ?_, rfl⟩
  rw [← String.ofList_append, ← split, String.ofList_toList]

/-- The parts of a text that is cut are the slices there. -/
theorem slices_of_split {text : String} {before rest : List Char}
    (split : text.toList = before ++ rest) :
    before? text (size before) = some (.ofList before) ∧
    behind? text (size before) = some (.ofList rest) := by
  have boundary := isValid_of_split split
  have splits : (text.pos ⟨size before⟩ boundary).Splits (.ofList before) (.ofList rest) := by
    refine ⟨?_, rfl⟩
    rw [← String.ofList_append, ← split, String.ofList_toList]
  rw [before?, behind?, dif_pos boundary, dif_pos boundary, splits.copy_sliceTo_eq,
    splits.copy_sliceFrom_eq]
  exact ⟨rfl, rfl⟩

/-- The size of the longest run of such characters that a text begins with. -/
def runSize (keep : Char → Bool) (text : String) : Nat :=
  size (text.toList.takeWhile keep)

theorem slices_of_run (keep : Char → Bool) (text : List Char) :
    before? (.ofList text) (runSize keep (.ofList text)) = some (.ofList (text.takeWhile keep)) ∧
    behind? (.ofList text) (runSize keep (.ofList text)) =
      some (.ofList (text.dropWhile keep)) := by
  rw [runSize, String.toList_ofList]
  exact slices_of_split (by rw [String.toList_ofList, List.takeWhile_append_dropWhile])

end Text

/-! ## Openers bound the depth -/

namespace Phrase

theorem openers_cons (c : Char) (text : List Char) :
    openers (c :: text) = openers [c] + openers text := by
  rw [openers, openers, openers, ← List.countP_append]
  rfl

theorem deepen_le (depth : Nat) (c : Char) : deepen depth c ≤ depth + openers [c] := by
  rw [deepen]
  by_cases opener : isOpener c = true
  · simp [openers, opener]
  · rw [if_neg opener]
    split <;> omega

theorem depthAfter_le (depth : Nat) (text : List Char) :
    depthAfter depth text ≤ depth + openers text := by
  induction text generalizing depth with
  | nil => exact Nat.le_refl _
  | cons c text ih =>
      calc
        depthAfter (deepen depth c) text ≤ deepen depth c + openers text := ih _
        _ ≤ depth + openers [c] + openers text := Nat.add_le_add_right (deepen_le depth c) _
        _ = depth + openers (c :: text) := by rw [Nat.add_assoc, ← openers_cons c text]

theorem openers_le_size (text : List Char) : openers text ≤ Text.size text :=
  Nat.le_trans List.countP_le_length (Text.length_le_size text)

theorem depthAfter_dollar (depth : Nat) (opening : List Char) :
    depthAfter depth (opening ++ ['$']) = depthAfter depth opening := by
  rw [depthAfter_append]
  rfl

end Phrase

/-! ## Cursors -/

open Phrase

/-- A reader that keeps its place in the phrase as an offset. -/
structure Cursor where
  phrase : String
  /-- How many bytes have been read. -/
  pos : Nat
  depth : Nat
  seen : List String
  done : Bool
  deriving DecidableEq, Repr

/-- One step of a cursor. -/
structure CursorStep where
  events : List Event
  item : Option ScanItem
  cursor : Cursor

namespace Cursor

def start (phrase : String) : Cursor where
  phrase := phrase
  pos := 0
  depth := 0
  seen := []
  done := false

/-- The cursor with these counters. Neither may exceed the size of the phrase, so both fit a word
if that does. -/
def move? (cursor : Cursor) (pos depth : Nat) : Option Cursor :=
  if pos ≤ cursor.phrase.utf8ByteSize ∧ depth ≤ cursor.phrase.utf8ByteSize then
    some { cursor with pos := pos, depth := depth }
  else none

/-- Move over one character of literal text. -/
def pass? (cursor : Cursor) (c : Char) : Option Cursor :=
  cursor.move? (cursor.pos + c.utf8Size) (deepen cursor.depth c)

theorem remaining_lt_of_pass? {cursor passed : Cursor} {c : Char}
    (moved : cursor.pass? c = some passed) :
    passed.phrase.utf8ByteSize - passed.pos < cursor.phrase.utf8ByteSize - cursor.pos := by
  have positive := c.utf8Size_pos
  rw [pass?, move?, Option.ite_none_right_eq_some, Option.some.injEq] at moved
  obtain ⟨⟨within, -⟩, rfl⟩ := moved
  dsimp only
  omega

/-- Move over literal text, up to and including the next `$`: the stray closers, whether there was
a `$`, and the cursor behind it. -/
def skip (cursor : Cursor) : Option (List Char × Bool × Cursor) :=
  match Text.behind? cursor.phrase cursor.pos with
  | none => none
  | some text =>
    match text.toList with
    | [] => some ([], false, cursor)
    | c :: _ =>
      match moved : cursor.pass? c with
      | none => none
      | some passed =>
        have _shorter := remaining_lt_of_pass? moved
        if c == '$' then some ([], true, passed)
        else
          passed.skip.map fun (closers, behind) =>
            ((if isCloser c && cursor.depth == 0 then [c] else []) ++ closers, behind)
termination_by cursor.phrase.utf8ByteSize - cursor.pos

def fail (cursor : Cursor) (error : PhraseError) : ScanItem × Cursor :=
  (.error error, { cursor with done := true })

/-- Read the reference whose `$` stands before the cursor. -/
def reference (cursor : Cursor) : Option (ScanItem × Cursor) := do
  let text ← Text.behind? cursor.phrase cursor.pos
  let tagSize := Text.runSize isTagChar text
  let tag ← Text.before? text tagSize
  let behindTag ← Text.behind? text tagSize
  match behindTag.toList with
  | ':' :: behindColon =>
    let nameSize := Text.runSize isNameChar (.ofList behindColon)
    let name ← Text.before? (.ofList behindColon) nameSize
    if tag.isEmpty || name.isEmpty then return cursor.fail (.malformedReference cursor.phrase)
    else if cursor.seen.contains name then
      return cursor.fail (.repeatedVariable cursor.phrase name)
    else
      let moved ← cursor.move? (cursor.pos + (tagSize + 1 + nameSize)) cursor.depth
      return (.ok ⟨tag, name, cursor.depth > 0⟩, { moved with seen := cursor.seen ++ [name] })
  | _ => return cursor.fail (.malformedReference cursor.phrase)

/-- Read on to the next reference. -/
def next (cursor : Cursor) : Option CursorStep := do
  if cursor.done then return ⟨[], none, cursor⟩
  let (closers, dollar, behind) ← cursor.skip
  let strays := closers.map (Event.unmatchedCloser cursor.phrase)
  if dollar then
    let (item, final) ← behind.reference
    return ⟨strays, some item, final⟩
  else
    return ⟨strays ++ unclosed cursor.phrase behind.depth, none, { behind with done := true }⟩

/-- The state behind the first `calls` steps. -/
def after : Nat → Cursor → Option Cursor
  | 0, cursor => some cursor
  | calls + 1, cursor => do (← cursor.next).cursor.after calls

/-! ## A cursor between two texts -/

/-- The cursor stands between two parts of its phrase. A group takes up a byte at least, so no
more groups can be open than there are bytes. -/
structure Between (cursor : Cursor) (before text : List Char) : Prop where
  split : cursor.phrase.toList = before ++ text
  pos : cursor.pos = Text.size before
  room : cursor.depth ≤ Text.size before

/-- The cursor behind some more text. -/
def passing (cursor : Cursor) (text : List Char) : Cursor :=
  { cursor with pos := cursor.pos + Text.size text, depth := depthAfter cursor.depth text }

variable {cursor : Cursor} {before text : List Char}

namespace Between

theorem slice (place : cursor.Between before text) :
    Text.behind? cursor.phrase cursor.pos = some (.ofList text) := by
  rw [place.pos]
  exact (Text.slices_of_split place.split).2

/-- Counters have room for what stands in the phrase. -/
theorem move? {passed : List Char} (place : cursor.Between before (passed ++ text)) {depth : Nat}
    (room : depth ≤ Text.size (before ++ passed)) :
    cursor.move? (cursor.pos + Text.size passed) depth =
      some { cursor with pos := cursor.pos + Text.size passed, depth := depth } := by
  have whole := Text.size_toList cursor.phrase
  rw [place.split, Text.size_append, Text.size_append] at whole
  rw [Text.size_append] at room
  rw [Cursor.move?, place.pos, if_pos ⟨by omega, by omega⟩]

theorem passing {passed : List Char} (place : cursor.Between before (passed ++ text)) :
    (cursor.passing passed).Between (before ++ passed) text where
  split := place.split.trans (List.append_assoc _ _ _).symm
  pos := by
    rw [Text.size_append, ← place.pos]
    rfl
  room := by
    rw [Text.size_append]
    calc
      depthAfter cursor.depth passed ≤ cursor.depth + openers passed := depthAfter_le _ _
      _ ≤ Text.size before + Text.size passed := Nat.add_le_add place.room (openers_le_size passed)

theorem cons {c : Char} (place : cursor.Between before (c :: text)) :
    (cursor.passing [c]).Between (before ++ [c]) text :=
  passing place

theorem pass? {c : Char} (place : cursor.Between before (c :: text)) :
    cursor.pass? c = some (cursor.passing [c]) := by
  have moved := @move? cursor before text [c] place _ place.cons.room
  simpa [Cursor.pass?, Cursor.passing, depthAfter] using moved

end Between

theorem passing_passing (cursor : Cursor) (text more : List Char) :
    (cursor.passing text).passing more = cursor.passing (text ++ more) := by
  simp [passing, depthAfter_append, Nat.add_assoc]

/-! ## What a cursor does there -/

theorem skip_of_end (place : cursor.Between before []) :
    cursor.skip = some ([], false, cursor) := by
  rw [skip, place.slice]
  rfl

theorem skip_of_cons {c : Char} (place : cursor.Between before (c :: text)) :
    cursor.skip =
      if c = '$' then some ([], true, cursor.passing [c])
      else (cursor.passing [c]).skip.map fun (closers, behind) =>
        ((if isCloser c && cursor.depth == 0 then [c] else []) ++ closers, behind) := by
  rw [skip, place.slice]
  simp only [String.toList_ofList]
  split
  · rename_i missing
    rw [place.pass?] at missing
    cases missing
  · rename_i passed moved
    rw [place.pass?] at moved
    cases moved
    simp only [beq_iff_eq]

/-- Literal text is passed to its end, or with the `$` behind it. -/
theorem skip_plain {opening : List Char} (plain : '$' ∉ opening) :
    (cursor.Between before opening →
      cursor.skip = some (straysIn cursor.depth opening, false, cursor.passing opening)) ∧
    ∀ text, cursor.Between before (opening ++ '$' :: text) →
      cursor.skip =
        some (straysIn cursor.depth opening, true, cursor.passing (opening ++ ['$'])) := by
  induction opening generalizing cursor before with
  | nil =>
      refine ⟨fun place => ?_, fun text place => ?_⟩
      · exact skip_of_end place
      · exact skip_of_cons place
  | cons c opening ih =>
      rw [List.mem_cons, not_or] at plain
      have other : c ≠ '$' := Ne.symm plain.1
      obtain ⟨ended, followed⟩ := @ih (cursor.passing [c]) (before ++ [c]) plain.2
      refine ⟨fun place => ?_, fun text place => ?_⟩
      · rw [skip_of_cons place, if_neg other, ended place.cons, passing_passing]
        rfl
      · rw [skip_of_cons place, if_neg other, followed text place.cons, passing_passing]
        rfl

/-- A reference is read with its tag, its colon and its name. -/
theorem reference_of_body {reference : Reference} {rest : List Char}
    (place : cursor.Between before (reference.body ++ rest)) (ends : NameEnds rest) :
    (reference.name ∈ cursor.seen →
      cursor.reference = some (cursor.fail (.repeatedVariable cursor.phrase reference.name))) ∧
    (reference.name ∉ cursor.seen →
      cursor.reference = some
        (.ok ⟨reference.tag, reference.name, cursor.depth > 0⟩,
          { cursor with
            pos := cursor.pos + Text.size reference.body
            seen := cursor.seen ++ [reference.name] })) := by
  have run : (reference.name.toList ++ rest).takeWhile isNameChar = reference.name.toList := by
    rw [List.takeWhile_append_of_pos reference.name_chars, takeWhile_nameEnds ends, List.append_nil]
  obtain ⟨tag, behindTag⟩ := Text.slices_of_run isTagChar (reference.body ++ rest)
  have name := (Text.slices_of_run isNameChar (reference.name.toList ++ rest)).1
  rw [takeWhile_tag, String.ofList_toList] at tag
  rw [dropWhile_tag] at behindTag
  rw [run, String.ofList_toList] at name
  have tagged : reference.tag.isEmpty = false := by
    rw [← String.ofList_toList (s := reference.tag), Text.isEmpty_ofList, List.isEmpty_eq_false_iff]
    exact reference.tag_nonempty
  have named : reference.name.isEmpty = false := by
    rw [← String.ofList_toList (s := reference.name), Text.isEmpty_ofList,
      List.isEmpty_eq_false_iff]
    exact reference.name_nonempty
  have sizes : Text.runSize isTagChar (.ofList (reference.body ++ rest)) + 1 +
      Text.runSize isNameChar (.ofList (reference.name.toList ++ rest)) =
        Text.size reference.body := by
    have colon : ':'.utf8Size = 1 := by decide
    rw [Text.runSize, Text.runSize, String.toList_ofList, String.toList_ofList, takeWhile_tag, run,
      Reference.body, Text.size_append, Text.size_cons, colon, Nat.add_assoc]
  have room : cursor.depth ≤ Text.size (before ++ reference.body) := by
    rw [Text.size_append]
    exact Nat.le_add_right_of_le place.room
  simp only [Cursor.reference, place.slice, Option.bind_eq_bind, Option.bind_some, tag, behindTag,
    String.toList_ofList, name, tagged, named, sizes, Bool.or_self, Bool.false_eq_true, if_false,
    List.contains_iff_mem, place.move? room]
  exact ⟨fun again => if_pos again, fun fresh => if_neg fresh⟩

/-- Where no reference stands, the slices are there nevertheless. -/
theorem reference_of_none (place : cursor.Between before text) (missing : reference? text = none) :
    cursor.reference = some (cursor.fail (.malformedReference cursor.phrase)) := by
  obtain ⟨tag, behindTag⟩ := Text.slices_of_run isTagChar text
  simp only [Cursor.reference, place.slice, Option.bind_eq_bind, Option.bind_some, tag, behindTag,
    String.toList_ofList]
  by_cases colon : ∃ behind, text.dropWhile isTagChar = ':' :: behind
  · obtain ⟨behind, colon⟩ := colon
    have name := (Text.slices_of_run isNameChar behind).1
    have empty : ((text.takeWhile isTagChar).isEmpty ||
        (behind.takeWhile isNameChar).isEmpty) = true := by
      by_contra filled
      simp [reference?, colon, filled] at missing
    simp only [colon, name, Option.bind_some, Text.isEmpty_ofList]
    rw [if_pos empty]
    rfl
  · split
    · rename_i behind spelled
      exact absurd ⟨behind, spelled⟩ colon
    · rfl

theorem next_of_done (done : cursor.done = true) : cursor.next = some ⟨[], none, cursor⟩ := by
  simp [next, done]

theorem next_of_plain (place : cursor.Between before text) (running : cursor.done = false)
    (plain : '$' ∉ text) :
    cursor.next = some
      ⟨(straysIn cursor.depth text).map (.unmatchedCloser cursor.phrase) ++
          unclosed cursor.phrase (depthAfter cursor.depth text),
        none, { cursor.passing text with done := true }⟩ := by
  simp [next, running, (skip_plain plain).1 place, passing]

theorem next_of_dollar {opening : List Char}
    (place : cursor.Between before (opening ++ '$' :: text)) (running : cursor.done = false)
    (plain : '$' ∉ opening) :
    cursor.next = (cursor.passing (opening ++ ['$'])).reference.map fun (item, behind) =>
      ⟨(straysIn cursor.depth opening).map (.unmatchedCloser cursor.phrase),
        some item, behind⟩ := by
  simp only [next, running, (skip_plain plain).2 text place, Bool.false_eq_true, if_false,
    Option.bind_eq_bind, Option.bind_some, if_true, Option.map_eq_bind]
  rfl

end Cursor

end VoiceGrammar
