/-
# Phrases as layouts: what reading accepts, and where it stops

A `Layout` is a phrase taken apart: literal text, then references, each with the
literal text behind it. It carries its own rules: literals have no `$`, tags and
names are non-empty runs of their characters, no literal behind a reference goes on
with a name character, and no name occurs twice.

Reading is exact for layouts. Every text is a layout followed by nothing or by a `$`
that cannot be read (`Decomposition`), in one way only
(`Decomposition.unique`), and reading finds it (`Scan.items_decompose`): it
yields the references of the layout in order and then the fault, if there is one.
`Scan.items` is what one full reading yields and `Scan.yields` what a number of
single steps yields; they agree once there are more steps than characters.
-/
import Mathlib.Data.List.TakeWhile
import VoiceGrammar.Phrase.Scan

namespace VoiceGrammar

set_option autoImplicit false

namespace Phrase

/-- A name ends here: the text does not go on with a name character. -/
def NameEnds (text : List Char) : Prop :=
  ∀ c ∈ text.head?, isNameChar c = false

/-- A tag and a name that can stand in a reference. -/
structure Reference where
  tag : String
  name : String
  tag_nonempty : tag.toList ≠ []
  tag_chars : ∀ c ∈ tag.toList, isTagChar c = true
  name_nonempty : name.toList ≠ []
  name_chars : ∀ c ∈ name.toList, isNameChar c = true

/-- What stands behind the `$` of a reference. -/
def Reference.body (reference : Reference) : List Char :=
  reference.tag.toList ++ ':' :: reference.name.toList

def Reference.written (reference : Reference) : String × String :=
  (reference.tag, reference.name)

/-- A reference and the literal text behind it. -/
structure Segment where
  reference : Reference
  literal : List Char
  plain : '$' ∉ literal
  ends : NameEnds literal

def Segment.text (segment : Segment) : List Char :=
  '$' :: (segment.reference.body ++ segment.literal)

def Segment.name (segment : Segment) : String :=
  segment.reference.name

/-- The text of segments in a row. -/
def spelled (segments : List Segment) : List Char :=
  segments.flatMap Segment.text

/-- A phrase as `L₀ R₁ L₁ … Rₖ Lₖ`. -/
structure Layout where
  opening : List Char
  segments : List Segment
  plain : '$' ∉ opening
  distinct : (segments.map Segment.name).Nodup

namespace Layout

def text (layout : Layout) : List Char :=
  layout.opening ++ spelled layout.segments

/-- The tags and names of the references, in order. -/
def references (layout : Layout) : List (String × String) :=
  layout.segments.map fun segment => segment.reference.written

def names (layout : Layout) : List String :=
  layout.segments.map Segment.name

end Layout

/-- How a text goes on behind a layout with these names: not at all, or with a `$` that
cannot be read, and the fault that is reported for it. -/
inductive Ends (phrase : String) (names : List String) : List Char → Option PhraseError → Prop where
  | finished : Ends phrase names [] none
  | malformed {text : List Char}
      (missing : ∀ (reference : Reference) (behind : List Char), text ≠ reference.body ++ behind) :
      Ends phrase names ('$' :: text) (some (.malformedReference phrase))
  | repeated (reference : Reference) {behind : List Char} (ends : NameEnds behind)
      (again : reference.name ∈ names) :
      Ends phrase names ('$' :: (reference.body ++ behind))
        (some (.repeatedVariable phrase reference.name))

/-- How the text behind some names already read is to be taken. -/
structure Decomposition (phrase : String) (seen : List String) (text : List Char) where
  opening : List Char
  segments : List Segment
  ending : List Char
  fault : Option PhraseError
  plain : '$' ∉ opening
  spelling : text = opening ++ (spelled segments ++ ending)
  distinct : (seen ++ segments.map Segment.name).Nodup
  ends : Ends phrase (seen ++ segments.map Segment.name) ending fault

def Decomposition.references {phrase : String} {seen : List String} {text : List Char}
    (decomposition : Decomposition phrase seen text) : List (String × String) :=
  decomposition.segments.map fun segment => segment.reference.written

theorem NameEnds.of_append {text behind : List Char} (ends : NameEnds (text ++ behind)) :
    NameEnds text := by
  intro c first
  cases text with
  | nil => simp at first
  | cons d text => exact ends c (by simpa using first)

theorem NameEnds.append {text behind : List Char} (ends : NameEnds text)
    (behindEnds : NameEnds behind) : NameEnds (text ++ behind) := by
  cases text with
  | nil => exact behindEnds
  | cons d text =>
      intro c first
      exact ends c (by simpa using first)

theorem nameEnds_dollar (text : List Char) : NameEnds ('$' :: text) := by
  intro c first
  obtain rfl : '$' = c := by simpa using first
  decide

theorem spelled_cons (segment : Segment) (segments : List Segment) (ending : List Char) :
    spelled (segment :: segments) ++ ending = segment.text ++ (spelled segments ++ ending) := by
  rw [spelled, List.flatMap_cons, List.append_assoc]
  rfl

theorem nameEnds_spelled (segments : List Segment) {ending : List Char} (ends : NameEnds ending) :
    NameEnds (spelled segments ++ ending) := by
  cases segments with
  | nil => exact ends
  | cons segment segments => exact nameEnds_dollar _

theorem Ends.nameEnds {phrase : String} {names : List String} {ending : List Char}
    {fault : Option PhraseError} (ends : Ends phrase names ending fault) : NameEnds ending := by
  cases ends with
  | finished => simp [NameEnds]
  | malformed missing => exact nameEnds_dollar _
  | repeated reference _ again => exact nameEnds_dollar _

/-- The text in front of a decomposed one, with one more reference. -/
def Decomposition.cons {phrase : String} {seen : List String} {opening behind : List Char}
    (reference : Reference) (later : Decomposition phrase (seen ++ [reference.name]) behind)
    (plain : '$' ∉ opening) (ends : NameEnds behind) :
    Decomposition phrase seen (opening ++ '$' :: (reference.body ++ behind)) where
  opening := opening
  segments := ⟨reference, later.opening, later.plain,
    NameEnds.of_append (later.spelling ▸ ends)⟩ :: later.segments
  ending := later.ending
  fault := later.fault
  plain := plain
  spelling := by
    conv => lhs; rw [later.spelling]
    simp [spelled, Segment.text]
  distinct := by simpa [Segment.name] using later.distinct
  ends := by simpa [Segment.name] using later.ends

/-! ## One reference -/

theorem dropWhile_tag (reference : Reference) (behind : List Char) :
    (reference.body ++ behind).dropWhile isTagChar = ':' :: (reference.name.toList ++ behind) := by
  have colon : isTagChar ':' = false := by decide
  rw [Reference.body, List.append_assoc, List.dropWhile_append_of_pos reference.tag_chars]
  simp [colon]

theorem takeWhile_tag (reference : Reference) (behind : List Char) :
    (reference.body ++ behind).takeWhile isTagChar = reference.tag.toList := by
  have colon : isTagChar ':' = false := by decide
  rw [Reference.body, List.append_assoc, List.takeWhile_append_of_pos reference.tag_chars]
  simp [colon]

theorem dropWhile_nameEnds {text : List Char} (ends : NameEnds text) :
    text.dropWhile isNameChar = text := by
  cases text with
  | nil => rfl
  | cons c text => simp [List.dropWhile, ends c rfl]

theorem takeWhile_nameEnds {text : List Char} (ends : NameEnds text) :
    text.takeWhile isNameChar = [] := by
  cases text with
  | nil => rfl
  | cons c text => simp [List.takeWhile, ends c rfl]

/-- A written reference is read back, up to the end of its name. -/
theorem reference?_body (reference : Reference) {behind : List Char} (ends : NameEnds behind) :
    reference? (reference.body ++ behind) = some (reference.tag, reference.name, behind) := by
  have name : (reference.name.toList ++ behind).takeWhile isNameChar = reference.name.toList := by
    rw [List.takeWhile_append_of_pos reference.name_chars, takeWhile_nameEnds ends,
      List.append_nil]
  have rest : (reference.name.toList ++ behind).dropWhile isNameChar = behind := by
    rw [List.dropWhile_append_of_pos reference.name_chars, dropWhile_nameEnds ends]
  unfold reference?
  rw [dropWhile_tag, takeWhile_tag]
  simp [name, rest, reference.tag_nonempty, reference.name_nonempty]

theorem nameEnds_dropWhile (text : List Char) : NameEnds (text.dropWhile isNameChar) := by
  intro c first
  have := List.head?_dropWhile_not isNameChar text
  rw [Option.mem_def] at first
  simpa [first] using this

/-- What is read is a reference, and its name is read to its end. -/
theorem reference?_eq_some {text rest : List Char} {tag name : String}
    (found : reference? text = some (tag, name, rest)) :
    ∃ reference : Reference, reference.written = (tag, name) ∧ text = reference.body ++ rest ∧
      NameEnds rest := by
  unfold reference? at found
  split at found
  · rename_i behind colon
    dsimp only at found
    split at found
    · simp at found
    · rename_i nonempty
      simp only [Option.some.injEq, Prod.mk.injEq] at found
      obtain ⟨rfl, rfl, rfl⟩ := found
      simp only [Bool.or_eq_true, List.isEmpty_iff, not_or] at nonempty
      refine ⟨⟨String.ofList (text.takeWhile isTagChar), String.ofList (behind.takeWhile isNameChar),
        ?_, ?_, ?_, ?_⟩, rfl, ?_, nameEnds_dropWhile behind⟩
      · rw [String.toList_ofList]
        exact nonempty.1
      · rw [String.toList_ofList]
        exact fun c member => List.mem_takeWhile_imp member
      · rw [String.toList_ofList]
        exact nonempty.2
      · rw [String.toList_ofList]
        exact fun c member => List.mem_takeWhile_imp member
      · simp only [Reference.body, String.toList_ofList, List.append_assoc, List.cons_append]
        rw [List.takeWhile_append_dropWhile, ← colon, List.takeWhile_append_dropWhile]
  · simp at found

theorem reference?_eq_none_iff {text : List Char} :
    reference? text = none ↔
      ∀ (reference : Reference) (behind : List Char), text ≠ reference.body ++ behind := by
  constructor
  · rintro none reference behind rfl
    unfold reference? at none
    rw [dropWhile_tag, takeWhile_tag] at none
    have name : (reference.name.toList ++ behind).takeWhile isNameChar ≠ [] := by
      rw [List.takeWhile_append_of_pos reference.name_chars]
      simp [reference.name_nonempty]
    simp [reference.tag_nonempty, name] at none
  · intro missing
    cases found : reference? text with
    | none => rfl
    | some parts =>
        obtain ⟨reference, -, spelling, -⟩ := reference?_eq_some found
        exact absurd spelling (missing reference _)

/-- A reference and what stands behind it are determined by the text. -/
theorem Reference.body_append_inj {first second : Reference} {behind after : List Char}
    (same : first.body ++ behind = second.body ++ after) (ends : NameEnds behind)
    (ends' : NameEnds after) : first = second ∧ behind = after := by
  have read := reference?_body first ends
  rw [same, reference?_body second ends'] at read
  simp only [Option.some.injEq, Prod.mk.injEq] at read
  obtain ⟨tag, name, rest⟩ := read
  cases first
  cases second
  cases tag
  cases name
  exact ⟨rfl, rest.symm⟩

theorem Reference.dollar_not_mem_body (reference : Reference) : '$' ∉ reference.body := by
  have noTag : isTagChar '$' = false := by decide
  have noName : isNameChar '$' = false := by decide
  intro member
  rcases List.mem_append.mp member with inTag | inName
  · rw [reference.tag_chars _ inTag] at noTag
    cases noTag
  · rcases List.mem_cons.mp inName with colon | inName
    · cases colon
    · rw [reference.name_chars _ inName] at noName
      cases noName

/-! ## Literal text -/

/-- The depth behind a character. A closer outside every group closes none. -/
def deepen (depth : Nat) (c : Char) : Nat :=
  if isOpener c then depth + 1 else if isCloser c then depth - 1 else depth

theorem isCloser_of_isOpener {c : Char} (opener : isOpener c = true) : isCloser c = false := by
  rw [isOpener, Bool.or_eq_true, beq_iff_eq, beq_iff_eq] at opener
  rcases opener with rfl | rfl <;> decide

/-- Any other character changes the depth, or is a stray closer. -/
theorem literal_cons {c : Char} (other : c ≠ '$') (depth : Nat) (text : List Char) :
    literal depth (c :: text) =
      ((if isCloser c && depth == 0 then [c] else []) ++ (literal (deepen depth c) text).1,
        (literal (deepen depth c) text).2) := by
  rw [literal.eq_def depth (c :: text)]
  dsimp only
  rw [if_neg (by simpa using other)]
  by_cases opener : isOpener c = true
  · simp [opener, isCloser_of_isOpener opener, deepen]
  · by_cases closer : isCloser c = true
    · cases depth with
      | zero => simp [opener, closer, deepen]
      | succ outer => simp [opener, closer, deepen]
    · simp [opener, closer, deepen]

/-- Literal text is read up to the first `$`. -/
theorem literal_cases (text : List Char) (depth : Nat) :
    ((literal depth text).2.2 = none ∧ '$' ∉ text) ∨
      ∃ opening rest, (literal depth text).2.2 = some rest ∧ '$' ∉ opening ∧
        text = opening ++ '$' :: rest := by
  induction text generalizing depth with
  | nil => exact .inl ⟨rfl, by simp⟩
  | cons c text ih =>
      by_cases dollar : c = '$'
      · subst dollar
        exact .inr ⟨[], text, rfl, by simp, rfl⟩
      · rw [literal_cons dollar]
        rcases ih (deepen depth c) with ⟨none, plain⟩ | ⟨opening, rest, found, plain, rfl⟩
        · exact .inl ⟨none, by simpa [Ne.symm dollar] using plain⟩
        · exact .inr ⟨c :: opening, rest, found, by simpa [Ne.symm dollar] using plain, rfl⟩

/-! ## Texts have one decomposition -/

/-- The text goes on with a `$` or not at all. -/
def AtDollar (text : List Char) : Prop :=
  ∀ c ∈ text.head?, c = '$'

theorem atDollar_spelled (segments : List Segment) {ending : List Char} (ends : AtDollar ending) :
    AtDollar (spelled segments ++ ending) := by
  cases segments with
  | nil => exact ends
  | cons segment segments =>
      intro c first
      exact (by simpa [spelled, Segment.text] using first : '$' = c).symm

theorem Ends.atDollar {phrase : String} {names : List String} {ending : List Char}
    {fault : Option PhraseError} (ends : Ends phrase names ending fault) : AtDollar ending := by
  cases ends <;> simp [AtDollar]

/-- Text without a `$` is determined by where the next `$` stands. -/
theorem plain_append_inj {first second behind after : List Char} (plain : '$' ∉ first)
    (plain' : '$' ∉ second) (next : AtDollar behind) (next' : AtDollar after)
    (same : first ++ behind = second ++ after) : first = second ∧ behind = after := by
  have dropped : ∀ {text rest : List Char}, '$' ∉ text → AtDollar rest →
      (text ++ rest).dropWhile (· != '$') = rest := by
    intro text rest plain next
    rw [List.dropWhile_append_of_pos
      (fun c member => by simpa using fun (h : c = '$') => plain (h ▸ member))]
    cases rest with
    | nil => rfl
    | cons c rest => simp [next c rfl]
  have rests : behind = after := by rw [← dropped plain next, same, dropped plain' next']
  subst rests
  exact ⟨List.append_cancel_right same, rfl⟩

/-- No segment with a new name begins where reading cannot go on. -/
theorem Ends.ne_segment {phrase : String} {names : List String} {ending behind : List Char}
    {fault : Option PhraseError} {segment : Segment} (ends : Ends phrase names ending fault)
    (behindEnds : NameEnds behind) (fresh : segment.name ∉ names) :
    ending ≠ segment.text ++ behind := by
  intro same
  cases ends with
  | finished => simp [Segment.text] at same
  | malformed missing =>
      simp only [Segment.text, List.cons_append, List.cons.injEq, true_and, List.append_assoc] at same
      exact missing _ _ same
  | repeated reference ends again =>
      simp only [Segment.text, List.cons_append, List.cons.injEq, true_and, List.append_assoc] at same
      obtain ⟨rfl, -⟩ := Reference.body_append_inj same ends (segment.ends.append behindEnds)
      exact fresh again

theorem Ends.fault_unique {phrase : String} {names : List String} {ending : List Char}
    {fault fault' : Option PhraseError} (ends : Ends phrase names ending fault)
    (ends' : Ends phrase names ending fault') : fault = fault' := by
  cases ends with
  | finished => cases ends'; rfl
  | malformed missing =>
      cases ends' with
      | malformed => rfl
      | repeated reference => exact absurd rfl (missing reference _)
  | repeated reference ends again =>
      generalize written : '$' :: (reference.body ++ _) = ending at ends'
      cases ends' with
      | finished => simp at written
      | malformed missing =>
          exact absurd (by simpa using written.symm) (missing reference _)
      | repeated other ends' again' =>
          obtain ⟨rfl, -⟩ := Reference.body_append_inj (by simpa using written) ends ends'
          rfl

theorem Segment.text_append_inj {first second : Segment} {behind after : List Char}
    (same : first.text ++ behind = second.text ++ after) (next : AtDollar behind)
    (next' : AtDollar after) (ends : NameEnds behind) (ends' : NameEnds after) :
    first = second ∧ behind = after := by
  simp only [Segment.text, List.cons_append, List.cons.injEq, true_and, List.append_assoc] at same
  obtain ⟨reference, literals⟩ := Reference.body_append_inj same (first.ends.append ends)
    (second.ends.append ends')
  obtain ⟨literal, rest⟩ := plain_append_inj first.plain second.plain next next' literals
  refine ⟨?_, rest⟩
  cases first
  cases second
  cases reference
  cases literal
  rfl

theorem Segment.name_fresh {seen : List String} {segment : Segment} {segments : List Segment}
    (distinct : (seen ++ (segment :: segments).map Segment.name).Nodup) :
    segment.name ∉ seen := by
  intro member
  rw [List.nodup_append] at distinct
  exact distinct.2.2 segment.name member segment.name (by simp) rfl

/-- Segments and what follows them are determined by their text. The induction carries the
names read so far, since a repeated name is what tells an ending from a segment. -/
theorem Decomposition.segments_unique {phrase : String} {seen : List String}
    {segments segments' : List Segment} {ending ending' : List Char}
    {fault fault' : Option PhraseError}
    (same : spelled segments ++ ending = spelled segments' ++ ending')
    (distinct : (seen ++ segments.map Segment.name).Nodup)
    (distinct' : (seen ++ segments'.map Segment.name).Nodup)
    (ends : Ends phrase (seen ++ segments.map Segment.name) ending fault)
    (ends' : Ends phrase (seen ++ segments'.map Segment.name) ending' fault') :
    segments = segments' ∧ ending = ending' ∧ fault = fault' := by
  induction segments generalizing seen segments' with
  | nil =>
      rw [List.map_nil, List.append_nil] at ends
      cases segments' with
      | nil =>
          obtain rfl : ending = ending' := same
          rw [List.map_nil, List.append_nil] at ends'
          exact ⟨rfl, rfl, ends.fault_unique ends'⟩
      | cons segment' segments' =>
          rw [spelled_cons] at same
          exact absurd same (ends.ne_segment (nameEnds_spelled _ ends'.nameEnds)
            (Segment.name_fresh distinct'))
  | cons segment segments ih =>
      rw [spelled_cons] at same
      cases segments' with
      | nil =>
          rw [List.map_nil, List.append_nil] at ends'
          exact absurd same.symm (ends'.ne_segment (nameEnds_spelled _ ends.nameEnds)
            (Segment.name_fresh distinct))
      | cons segment' segments' =>
          rw [spelled_cons] at same
          obtain ⟨rfl, rest⟩ := Segment.text_append_inj same
            (atDollar_spelled _ ends.atDollar) (atDollar_spelled _ ends'.atDollar)
            (nameEnds_spelled _ ends.nameEnds) (nameEnds_spelled _ ends'.nameEnds)
          rw [List.map_cons, List.append_cons] at distinct distinct' ends ends'
          obtain ⟨rfl, tail⟩ := ih rest distinct distinct' ends ends'
          exact ⟨rfl, tail⟩

theorem Decomposition.unique {phrase : String} {seen : List String} {text : List Char}
    (first second : Decomposition phrase seen text) : first = second := by
  have same := first.spelling.symm.trans second.spelling
  obtain ⟨opening, rest⟩ := plain_append_inj first.plain second.plain
    (atDollar_spelled _ first.ends.atDollar) (atDollar_spelled _ second.ends.atDollar) same
  obtain ⟨segments, ending, fault⟩ := segments_unique rest first.distinct second.distinct
    first.ends second.ends
  cases first
  cases second
  cases opening
  cases segments
  cases ending
  cases fault
  rfl

end Phrase

namespace Scan

open Phrase

/-! ## One step of reading -/

/-- What one step does, by what stands in front of it. -/
inductive Advances (scan : Scan) : Prop where
  | finished (plain : '$' ∉ scan.rest) (nothing : scan.next.item = none)
      (done : scan.next.scan.done = true)
  | stopped {opening text : List Char} {fault : PhraseError} (plain : '$' ∉ opening)
      (rest : scan.rest = opening ++ '$' :: text)
      (ends : Ends scan.phrase scan.seen ('$' :: text) (some fault))
      (item : scan.next.item = some (.error fault)) (done : scan.next.scan.done = true)
  | read {opening behind : List Char} (depth : Nat) (reference : Reference)
      (plain : '$' ∉ opening) (rest : scan.rest = opening ++ '$' :: (reference.body ++ behind))
      (ends : NameEnds behind) (fresh : reference.name ∉ scan.seen)
      (item : scan.next.item = some (.ok ⟨reference.tag, reference.name, depth > 0⟩))
      (after : scan.next.scan =
        { scan with rest := behind, depth := depth, seen := scan.seen ++ [reference.name] })

theorem advances {scan : Scan} (reading : scan.done = false) : Advances scan := by
  rcases found : literal scan.depth scan.rest with ⟨closers, depth, behind⟩
  rcases literal_cases scan.rest scan.depth with ⟨absent, plain⟩ | ⟨opening, text, present, plain, rest⟩
  · obtain rfl : behind = none := by simpa [found] using absent
    refine .finished plain ?_ ?_ <;> simp [next, reading, found]
  · obtain rfl : behind = some text := by simpa [found] using present
    cases reference : reference? text with
    | none =>
        refine .stopped plain rest (.malformed (reference?_eq_none_iff.mp reference)) ?_ ?_ <;>
          simp [next, reading, found, reference]
    | some parts =>
        obtain ⟨tag, name, behind⟩ := parts
        obtain ⟨written, same, rfl, ends⟩ := reference?_eq_some reference
        obtain ⟨rfl, rfl⟩ := Prod.mk.inj same
        by_cases again : written.name ∈ scan.seen
        · refine .stopped plain rest (.repeated written ends again) ?_ ?_ <;>
            simp [next, reading, found, reference, again]
        · refine .read depth written plain rest ends again ?_ ?_ <;>
            simp [next, reading, found, reference, again]

/-! ## A whole reading -/

/-- What a part of a reading yields to its caller. -/
def Signal.item? : Signal → Option ScanItem
  | .event _ => none
  | .occurrence found => some (.ok found)
  | .fault error => some (.error error)

/-- What reading to the end yields. -/
def items (scan : Scan) : List ScanItem :=
  scan.drain.1.filterMap Signal.item?

/-- What the first `calls` steps of reading yield. -/
def yields : Nat → Scan → List ScanItem
  | 0, _ => []
  | calls + 1, scan => scan.next.item.toList ++ yields calls scan.next.scan

section Drain

variable {scan : Scan}

theorem drain_of_none (nothing : scan.next.item = none) :
    scan.drain.1 = scan.next.events.map .event := by
  rw [drain]
  split <;> simp_all

theorem drain_of_error {error : PhraseError} (item : scan.next.item = some (.error error)) :
    scan.drain.1 = scan.next.events.map .event ++ [.fault error] := by
  rw [drain]
  split <;> simp_all

theorem drain_of_ok {occurrence : Occurrence} (item : scan.next.item = some (.ok occurrence)) :
    scan.drain.1 =
      scan.next.events.map .event ++ .occurrence occurrence :: scan.next.scan.drain.1 := by
  rw [drain]
  split <;> simp_all

theorem filterMap_item?_events (events : List Event) :
    (events.map Signal.event).filterMap Signal.item? = [] := by
  simp [Signal.item?]

theorem items_of_none (nothing : scan.next.item = none) : scan.items = [] := by
  rw [items, drain_of_none nothing]
  exact filterMap_item?_events _

theorem items_of_error {error : PhraseError} (item : scan.next.item = some (.error error)) :
    scan.items = [.error error] := by
  rw [items, drain_of_error item, List.filterMap_append, filterMap_item?_events]
  rfl

theorem items_of_ok {occurrence : Occurrence} (item : scan.next.item = some (.ok occurrence)) :
    scan.items = .ok occurrence :: scan.next.scan.items := by
  rw [items, drain_of_ok item, List.filterMap_append, filterMap_item?_events]
  rfl

end Drain

theorem yields_of_done {scan : Scan} (done : scan.done = true) (calls : Nat) :
    scan.yields calls = [] := by
  induction calls with
  | zero => rfl
  | succ calls ih =>
      have stays : scan.next = ⟨[], none, scan⟩ := by simp [next, done]
      simpa [yields, stays] using ih

/-- More steps yield more. -/
theorem yields_sublist (scan : Scan) {fewer more : Nat} (le : fewer ≤ more) :
    (scan.yields fewer).Sublist (scan.yields more) := by
  induction fewer generalizing scan more with
  | zero => exact List.nil_sublist _
  | succ fewer ih =>
      cases more with
      | zero => omega
      | succ more => exact (ih scan.next.scan (by omega)).append_left _

/-- Enough single steps yield what one full reading yields, and then nothing more. -/
theorem yields_eq_items {scan : Scan} (reading : scan.done = false) {calls : Nat}
    (enough : scan.rest.length < calls) : scan.yields calls = scan.items := by
  induction calls generalizing scan with
  | zero => omega
  | succ calls ih =>
      cases advances reading with
      | finished plain nothing done =>
          rw [yields, nothing, yields_of_done done, items_of_none nothing]
          rfl
      | stopped plain rest ends item done =>
          rw [yields, item, yields_of_done done, items_of_error item]
          rfl
      | read depth reference plain rest ends fresh item after =>
          have shorter := next_rest_length scan item
          have reading' : scan.next.scan.done = false := by rw [after]; exact reading
          have further := ih reading' (by omega)
          rw [yields, item, further, items_of_ok item]
          rfl

/-- Reading finds a decomposition of the text in front of it: it yields the references and
then the fault. -/
theorem items_decompose {scan : Scan} (reading : scan.done = false) (distinct : scan.seen.Nodup) :
    ∃ (decomposition : Decomposition scan.phrase scan.seen scan.rest)
      (occurrences : List Occurrence),
      occurrences.map (fun o => (o.tag, o.name)) = decomposition.references ∧
      scan.items = occurrences.map .ok ++ decomposition.fault.toList.map .error := by
  induction size : scan.rest.length using Nat.strongRecOn generalizing scan with
  | ind size ih =>
      cases advances reading with
      | finished plain nothing done =>
          refine ⟨⟨scan.rest, [], [], none, plain, ?_, ?_, .finished⟩, [], rfl, ?_⟩
          · simp [spelled]
          · simpa using distinct
          · rw [items_of_none nothing]
            rfl
      | @stopped opening text fault plain rest ends item done =>
          refine ⟨⟨opening, [], '$' :: text, some fault, plain, rest, ?_, ?_⟩, [], rfl, ?_⟩
          · simpa using distinct
          · simpa using ends
          · rw [items_of_error item]
            rfl
      | @read opening behind depth reference plain rest ends fresh item after =>
          have shorter := next_rest_length scan item
          have reading' : scan.next.scan.done = false := by rw [after]; exact reading
          have distinct' : scan.next.scan.seen.Nodup := by
            rw [after, List.nodup_append]
            refine ⟨distinct, by simp, fun name seen other member => ?_⟩
            rintro rfl
            exact fresh (List.mem_singleton.mp member ▸ seen)
          have further := ih _ (by omega) reading' distinct' rfl
          rw [items_of_ok item, rest]
          rw [after] at further ⊢
          obtain ⟨later, occurrences, same, yielded⟩ := further
          refine ⟨later.cons reference plain ends,
            ⟨reference.tag, reference.name, depth > 0⟩ :: occurrences, ?_, ?_⟩
          · rw [List.map_cons, same]
            rfl
          · rw [yielded]
            rfl

end Scan

namespace Phrase

/-! ## Whole phrases -/

/-- The layout in front of what cannot be read. -/
def Decomposition.layout {phrase : String} {text : List Char}
    (decomposition : Decomposition phrase [] text) : Layout where
  opening := decomposition.opening
  segments := decomposition.segments
  plain := decomposition.plain
  distinct := decomposition.distinct

/-- A layout of the whole text leaves nothing that cannot be read. -/
def Layout.decomposition {layout : Layout} {text : List Char} (phrase : String)
    (spelling : layout.text = text) : Decomposition phrase [] text where
  opening := layout.opening
  segments := layout.segments
  ending := []
  fault := none
  plain := layout.plain
  spelling := by rw [← spelling, Layout.text, List.append_nil]
  distinct := layout.distinct
  ends := .finished

theorem Layout.eq_of_text {first second : Layout} (same : first.text = second.text) :
    first = second := by
  have parts := Decomposition.unique (first.decomposition "" same) (second.decomposition "" rfl)
  cases first
  cases second
  cases congrArg Decomposition.opening parts
  cases congrArg Decomposition.segments parts
  rfl

theorem Decomposition.fault_eq_none_iff {phrase : String} {text : List Char}
    (decomposition : Decomposition phrase [] text) :
    decomposition.fault = none ↔ ∃ layout : Layout, layout.text = text := by
  constructor
  · intro complete
    refine ⟨decomposition.layout, ?_⟩
    have ends := decomposition.ends
    rw [complete] at ends
    generalize ended : decomposition.ending = ending at ends
    cases ends
    have spelling := decomposition.spelling
    rw [ended, List.append_nil] at spelling
    exact spelling.symm
  · rintro ⟨layout, spelling⟩
    rw [Decomposition.unique decomposition (layout.decomposition phrase spelling)]
    rfl

theorem occurrences_eq_items (phrase : String) :
    occurrences phrase = (Scan.start phrase).items.filterMap Except.toOption := by
  rw [Scan.items, List.filterMap_filterMap, occurrences, signals]
  congr 1
  funext signal
  cases signal <;> rfl

/-- The error of an item that is one. -/
def itemError? : ScanItem → Option PhraseError
  | .ok _ => none
  | .error error => some error

theorem fault?_eq_items (phrase : String) :
    fault? phrase = (Scan.start phrase).items.findSome? itemError? := by
  rw [Scan.items, fault?, signals]
  induction (Scan.start phrase).drain.1 with
  | nil => rfl
  | cons signal signals ih =>
      cases signal with
      | event => exact ih
      | occurrence => exact ih
      | fault => rfl

theorem filterMap_toOption_items (found : List Occurrence) (fault : Option PhraseError) :
    (found.map Except.ok ++ fault.toList.map Except.error : List ScanItem).filterMap
      Except.toOption = found := by
  rw [List.filterMap_append, List.filterMap_map]
  have kept : found.filterMap (Except.toOption ∘ (Except.ok : Occurrence → ScanItem)) = found :=
    List.filterMap_some
  cases fault with
  | none => rw [kept]; exact List.append_nil _
  | some error => rw [kept]; exact List.append_nil _

theorem findSome?_itemError?_items (found : List Occurrence) (fault : Option PhraseError) :
    (found.map Except.ok ++ fault.toList.map Except.error : List ScanItem).findSome?
      itemError? = fault := by
  induction found with
  | nil => cases fault <;> rfl
  | cons occurrence found ih => exact ih

/-- A phrase is decomposed by its reading, whether it is read step by step or at once. -/
theorem reading_decompose (phrase : String) :
    ∃ decomposition : Decomposition phrase [] phrase.toList,
      (occurrences phrase).map (fun o => (o.tag, o.name)) = decomposition.references ∧
      fault? phrase = decomposition.fault ∧
      ∀ calls, phrase.length < calls → (Scan.start phrase).yields calls =
        (occurrences phrase).map .ok ++ decomposition.fault.toList.map .error := by
  obtain ⟨decomposition, found, same, yielded⟩ :=
    @Scan.items_decompose (Scan.start phrase) rfl List.nodup_nil
  have all : occurrences phrase = found := by
    rw [occurrences_eq_items, yielded, filterMap_toOption_items]
  have last : fault? phrase = decomposition.fault := by
    rw [fault?_eq_items, yielded, findSome?_itemError?_items]
  refine ⟨decomposition, all ▸ same, last, fun calls enough => ?_⟩
  rw [all, ← yielded]
  refine Scan.yields_eq_items rfl ?_
  rw [← String.length_toList] at enough
  exact enough

/-- **Reading accepts exactly the phrases that have a layout.** Such a phrase has one layout,
and reading yields its references. Any other phrase is a layout followed by a `$` that cannot
be read; reading yields the references of that layout, then the fault, then nothing. -/
theorem reading_accepts_layouts (phrase : String) :
    ((∀ calls, ∀ item ∈ (Scan.start phrase).yields calls, ∃ found, item = .ok found) ↔
      ∃ layout : Layout, layout.text = phrase.toList) ∧
    (∀ layout : Layout, layout.text = phrase.toList →
      (∀ other : Layout, other.text = phrase.toList → other = layout) ∧
      (occurrences phrase).map (fun o => (o.tag, o.name)) = layout.references ∧
      fault? phrase = none ∧
      ∀ calls, phrase.length < calls →
        (Scan.start phrase).yields calls = (occurrences phrase).map .ok) ∧
    ((¬ ∃ layout : Layout, layout.text = phrase.toList) →
      ∃ (before : Layout) (text : List Char) (error : PhraseError),
        phrase.toList = before.text ++ '$' :: text ∧
        Ends phrase before.names ('$' :: text) (some error) ∧
        (occurrences phrase).map (fun o => (o.tag, o.name)) = before.references ∧
        fault? phrase = some error ∧
        ∀ calls, phrase.length < calls →
          (Scan.start phrase).yields calls = (occurrences phrase).map .ok ++ [.error error]) := by
  obtain ⟨decomposition, same, last, yielded⟩ := reading_decompose phrase
  have complete := decomposition.fault_eq_none_iff
  refine ⟨⟨fun accepted => ?_, fun layout calls item member => ?_⟩, fun layout spelling => ?_,
    fun rejected => ?_⟩
  · rw [← complete, Option.eq_none_iff_forall_ne_some]
    intro error faulty
    obtain ⟨found, wrong⟩ := accepted (phrase.length + 1) (.error error) (by
      rw [yielded _ (Nat.lt_succ_self _), faulty]
      simp)
    cases wrong
  · have more := Scan.yields_sublist (Scan.start phrase) (Nat.le_add_left calls (phrase.length + 1))
    rw [yielded (phrase.length + 1 + calls) (by omega), complete.mpr layout] at more
    obtain ⟨found, -, same⟩ : ∃ found ∈ occurrences phrase, Except.ok found = item := by
      simpa using more.subset member
    exact ⟨found, same.symm⟩
  · have faultless := complete.mpr ⟨layout, spelling⟩
    have parts := Decomposition.unique decomposition (layout.decomposition phrase spelling)
    refine ⟨fun other otherSpelling => Layout.eq_of_text (otherSpelling.trans spelling.symm), ?_,
      last.trans faultless, fun calls enough => ?_⟩
    · rw [same, parts]
      rfl
    · rw [yielded calls enough, faultless]
      simp
  · cases faulty : decomposition.fault with
    | none => exact absurd (complete.mp faulty) rejected
    | some error =>
        have ends := decomposition.ends
        have spelling := decomposition.spelling
        rw [faulty] at ends
        generalize decomposition.ending = ending at ends spelling
        have dollar : ∃ text, ending = '$' :: text := by cases ends <;> exact ⟨_, rfl⟩
        obtain ⟨text, rfl⟩ := dollar
        refine ⟨decomposition.layout, text, error, ?_, ends, same, last.trans faulty,
          fun calls enough => ?_⟩
        · exact spelling.trans (List.append_assoc _ _ _).symm
        · rw [yielded calls enough, faulty]
          rfl

end Phrase

end VoiceGrammar
