/-
# Where a reading stands

`Scan.Reads` is all that a step of the scan can do, with the text that it reads. A cursor in front
of that text does the same and comes to stand behind it (`Scan.Reads.cursor`). So the two go in step
(`Scan.passes`), and what is said of offsets is said of the scan, which has none: they are
boundaries of the phrase, they grow, and reading is over after one step for each `$` and one more
(`Scan.reading_well_formed`).
-/
import VoiceGrammar.Proofs.ByteCursor
import VoiceGrammar.Proofs.Outcome

namespace VoiceGrammar

set_option autoImplicit false

open Phrase

/-! ## One step -/

namespace Scan

/-- What a step does, with the text that it reads. -/
inductive Reads (scan : Scan) : List Char → ScanStep → Prop where
  | nothing (done : scan.done = true) : Reads scan [] ⟨[], none, scan⟩
  | finished (reading : scan.done = false) (plain : '$' ∉ scan.rest) :
      Reads scan scan.rest
        ⟨(straysIn scan.depth scan.rest).map (.unmatchedCloser scan.phrase) ++
            unclosed scan.phrase (depthAfter scan.depth scan.rest),
          none,
          { scan with rest := [], depth := depthAfter scan.depth scan.rest, done := true }⟩
  | malformed {opening text : List Char} (reading : scan.done = false) (plain : '$' ∉ opening)
      (rest : scan.rest = opening ++ '$' :: text) (missing : reference? text = none) :
      Reads scan (opening ++ ['$'])
        ⟨(straysIn scan.depth opening).map (.unmatchedCloser scan.phrase),
          some (.error (.malformedReference scan.phrase)),
          { scan with rest := text, depth := depthAfter scan.depth opening, done := true }⟩
  | repeated {opening behind : List Char} {reference : Reference} (reading : scan.done = false)
      (plain : '$' ∉ opening) (rest : scan.rest = opening ++ '$' :: (reference.body ++ behind))
      (ends : NameEnds behind) (again : reference.name ∈ scan.seen) :
      Reads scan (opening ++ ['$'])
        ⟨(straysIn scan.depth opening).map (.unmatchedCloser scan.phrase),
          some (.error (.repeatedVariable scan.phrase reference.name)),
          { scan with
            rest := reference.body ++ behind
            depth := depthAfter scan.depth opening
            done := true }⟩
  | occurrence {opening behind : List Char} {reference : Reference} (reading : scan.done = false)
      (plain : '$' ∉ opening) (rest : scan.rest = opening ++ '$' :: (reference.body ++ behind))
      (ends : NameEnds behind) (fresh : reference.name ∉ scan.seen) :
      Reads scan (opening ++ '$' :: reference.body)
        ⟨(straysIn scan.depth opening).map (.unmatchedCloser scan.phrase),
          some (.ok ⟨reference.tag, reference.name, depthAfter scan.depth opening > 0⟩),
          { scan with
            rest := behind
            depth := depthAfter scan.depth opening
            seen := scan.seen ++ [reference.name] }⟩

theorem next_reads (scan : Scan) : ∃ passed, Reads scan passed scan.next := by
  cases reading : scan.done with
  | true =>
      rw [next_of_done reading]
      exact ⟨_, .nothing reading⟩
  | false =>
      rcases literal_cases scan.rest scan.depth with ⟨-, plain⟩ | ⟨opening, text, -, plain, rest⟩
      · refine ⟨scan.rest, ?_⟩
        convert Reads.finished reading plain using 1
        simp [next, reading, (literal_plain plain scan.depth).1, unclosed]
      · have literal := (literal_plain plain scan.depth).2 text
        cases found : reference? text with
        | none =>
            refine ⟨opening ++ ['$'], ?_⟩
            convert Reads.malformed reading plain rest found using 1
            simp [next, reading, rest, literal, found]
        | some parts =>
            obtain ⟨reference, -, rfl, ends⟩ := reference?_eq_some found
            by_cases again : reference.name ∈ scan.seen
            · refine ⟨opening ++ ['$'], ?_⟩
              convert Reads.repeated reading plain rest ends again using 1
              simp [next, reading, rest, literal, reference?_body reference ends, again]
            · refine ⟨opening ++ '$' :: reference.body, ?_⟩
              convert Reads.occurrence reading plain rest ends again using 1
              simp [next, reading, rest, literal, reference?_body reference ends, again]

/-- The name that an item yields. -/
def itemName? : ScanItem → Option String
  | .ok occurrence => some occurrence.name
  | .error _ => none

/-- The cursor that stands where the scan does, behind the text that has been read. -/
def cursor (scan : Scan) (before : List Char) : Cursor :=
  ⟨scan.phrase, Text.size before, scan.depth, scan.seen, scan.done⟩

theorem cursor_passing (scan : Scan) (before text : List Char) :
    (scan.cursor before).passing text =
      { scan with depth := depthAfter scan.depth text }.cursor (before ++ text) := by
  simp [Cursor.passing, cursor]

/-- A cursor in front of a `$` comes to stand behind it. -/
theorem cursor_of_dollar {scan : Scan} {before opening text : List Char}
    (place : (scan.cursor before).Between before (opening ++ '$' :: text))
    (reading : scan.done = false) (plain : '$' ∉ opening) :
    let behind := { scan with depth := depthAfter scan.depth opening }.cursor
      (before ++ (opening ++ ['$']))
    (scan.cursor before).next = (behind.reference.map fun (item, final) =>
      ⟨(straysIn scan.depth opening).map (.unmatchedCloser scan.phrase), some item, final⟩) ∧
    behind.Between (before ++ (opening ++ ['$'])) text := by
  have behind := cursor_passing scan before (opening ++ ['$'])
  rw [depthAfter_dollar] at behind
  refine ⟨?_, ?_⟩
  · rw [Cursor.next_of_dollar place reading plain, behind]
    rfl
  · rw [← behind]
    refine Cursor.Between.passing ?_
    rwa [List.append_assoc]

namespace Reads

variable {scan : Scan} {passed : List Char} {step : ScanStep} (reads : Reads scan passed step)

include reads

theorem phrase_eq : step.scan.phrase = scan.phrase := by
  cases reads <;> rfl

theorem rest_eq : scan.rest = passed ++ step.scan.rest := by
  cases reads with
  | nothing => rfl
  | finished => exact (List.append_nil _).symm
  | malformed _ _ rest => rw [rest, List.append_assoc, List.singleton_append]
  | repeated _ _ rest => rw [rest, List.append_assoc, List.singleton_append]
  | occurrence _ _ rest => rw [rest, List.append_assoc, List.cons_append]

theorem depth_eq : step.scan.depth = depthAfter scan.depth passed := by
  cases reads with
  | nothing => rfl
  | finished => rfl
  | malformed => exact (depthAfter_dollar _ _).symm
  | repeated => exact (depthAfter_dollar _ _).symm
  | @occurrence opening _ reference =>
      have level := (through_reference scan.depth opening reference []).1
      rw [List.append_nil] at level
      exact level.symm

theorem seen_eq : step.scan.seen = scan.seen ++ step.item.toList.filterMap itemName? := by
  cases reads with
  | occurrence => rfl
  | _ => exact (List.append_nil _).symm

theorem nodup_seen (distinct : scan.seen.Nodup) : step.scan.seen.Nodup := by
  cases reads with
  | occurrence _ _ _ _ fresh => exact nodup_concat_iff.mpr ⟨fresh, distinct⟩
  | _ => exact distinct

/-- What is yielded stands behind a `$` of the text that is read. -/
theorem length_item_le : step.item.toList.length ≤ passed.count '$' := by
  cases reads with
  | nothing => exact Nat.le_refl 0
  | finished => exact Nat.zero_le _
  | malformed => simp
  | repeated => simp
  | occurrence =>
      rw [List.count_append, List.count_cons_self, ← Nat.add_assoc]
      exact Nat.le_add_left 1 _

theorem count_pos {item : ScanItem} (yielded : step.item = some item) : 0 < passed.count '$' := by
  have one := reads.length_item_le
  rwa [yielded] at one

theorem size_pos {item : ScanItem} (yielded : step.item = some item) : 0 < Text.size passed :=
  calc
    0 < passed.count '$' := reads.count_pos yielded
    _ ≤ passed.length := List.count_le_length
    _ ≤ Text.size passed := Text.length_le_size passed

theorem between {before : List Char} (place : (scan.cursor before).Between before scan.rest) :
    (step.scan.cursor (before ++ passed)).Between (before ++ passed) step.scan.rest := by
  rw [reads.rest_eq] at place
  have passing := place.passing
  exact ⟨by rw [← passing.split]; exact congrArg _ reads.phrase_eq, rfl,
    Nat.le_trans (Nat.le_of_eq reads.depth_eq) passing.room⟩

/-- **The cursor does not fail, and comes to stand behind what is read.** -/
theorem cursor {before : List Char} (place : (scan.cursor before).Between before scan.rest) :
    (scan.cursor before).next =
      some ⟨step.events, step.item, step.scan.cursor (before ++ passed)⟩ := by
  cases reads with
  | nothing done =>
      rw [Cursor.next_of_done done, List.append_nil]
  | finished reading plain =>
      rw [Cursor.next_of_plain place reading plain, cursor_passing]
      rfl
  | malformed reading plain rest missing =>
      obtain ⟨moved, behind⟩ := cursor_of_dollar (rest ▸ place) reading plain
      rw [moved, Cursor.reference_of_none behind missing]
      rfl
  | repeated reading plain rest ends again =>
      obtain ⟨moved, behind⟩ := cursor_of_dollar (rest ▸ place) reading plain
      rw [moved, (Cursor.reference_of_body behind ends).1 again]
      rfl
  | occurrence reading plain rest ends fresh =>
      obtain ⟨moved, behind⟩ := cursor_of_dollar (rest ▸ place) reading plain
      rw [moved, (Cursor.reference_of_body behind ends).2 fresh]
      simp [Scan.cursor, Nat.add_assoc]

end Reads

/-! ## Many steps -/

/-- What a number of steps reads, and where the cursor stands behind it. -/
structure Passes (scan : Scan) (calls : Nat) (passed : List Char) : Prop where
  rest : scan.rest = passed ++ (scan.after calls).rest
  depth : (scan.after calls).depth = depthAfter scan.depth passed
  yielded : (scan.yields calls).length ≤ passed.count '$'
  cursor : ∀ before, (scan.cursor before).Between before scan.rest →
    (scan.cursor before).after calls = some ((scan.after calls).cursor (before ++ passed)) ∧
    ((scan.after calls).cursor (before ++ passed)).Between (before ++ passed)
      (scan.after calls).rest

theorem passes (scan : Scan) (calls : Nat) : ∃ passed, scan.Passes calls passed := by
  induction calls generalizing scan with
  | zero =>
      refine ⟨[], rfl, rfl, Nat.le_refl 0, fun before place => ?_⟩
      rw [List.append_nil]
      exact ⟨rfl, place⟩
  | succ calls ih =>
      obtain ⟨first, reads⟩ := scan.next_reads
      obtain ⟨later, further⟩ := ih scan.next.scan
      refine ⟨first ++ later, ?_, ?_, ?_, fun before place => ?_⟩
      · rw [after, List.append_assoc, ← further.rest, reads.rest_eq]
      · rw [after, further.depth, reads.depth_eq, depthAfter_append]
      · rw [yields, List.length_append, List.count_append]
        exact Nat.add_le_add reads.length_item_le further.yielded
      · rw [Cursor.after, reads.cursor place, after, ← List.append_assoc]
        exact further.cursor (before ++ first) (reads.between place)

theorem seen_after (scan : Scan) (calls : Nat) :
    (scan.after calls).seen = scan.seen ++ (scan.yields calls).filterMap itemName? := by
  induction calls generalizing scan with
  | zero => exact (List.append_nil _).symm
  | succ calls ih =>
      obtain ⟨_, reads⟩ := scan.next_reads
      rw [after, ih, reads.seen_eq, yields, List.filterMap_append, List.append_assoc]

theorem nodup_seen_after {scan : Scan} (distinct : scan.seen.Nodup) (calls : Nat) :
    (scan.after calls).seen.Nodup := by
  induction calls generalizing scan with
  | zero => exact distinct
  | succ calls ih =>
      obtain ⟨_, reads⟩ := scan.next_reads
      exact ih (reads.nodup_seen distinct)

theorem phrase_after (scan : Scan) (calls : Nat) : (scan.after calls).phrase = scan.phrase := by
  induction calls generalizing scan with
  | zero => rfl
  | succ calls ih =>
      obtain ⟨_, reads⟩ := scan.next_reads
      rw [after, ih, reads.phrase_eq]

/-- Reading is over once there have been more steps than there are `$`. -/
theorem done_after {scan : Scan} {calls : Nat} (enough : scan.rest.count '$' < calls) :
    (scan.after calls).done = true := by
  induction calls generalizing scan with
  | zero => omega
  | succ calls ih =>
      by_cases yielded : ∃ occurrence, scan.next.item = some (.ok occurrence)
      · obtain ⟨occurrence, item⟩ := yielded
        obtain ⟨passed, reads⟩ := scan.next_reads
        have one := reads.count_pos item
        rw [reads.rest_eq, List.count_append] at enough
        exact ih (by omega)
      · have done := done_of_not_ok (not_exists.mp yielded)
        rw [after, after_of_done done, done]

theorem items_of_done {scan : Scan} (done : scan.done = true) : scan.items = [] :=
  items_of_none (by rw [next_of_done done])

/-- However many steps come first, the same is yielded in the end. -/
theorem yields_append_items (scan : Scan) (calls : Nat) :
    scan.yields calls ++ (scan.after calls).items = scan.items := by
  induction calls generalizing scan with
  | zero => rfl
  | succ calls ih =>
      rw [yields, after, List.append_assoc, ih]
      rcases item : scan.next.item with _ | error | occurrence
      · rw [items_of_none item, items_of_done (done_of_not_ok (by simp [item]))]
        rfl
      · rw [items_of_error item, items_of_done (done_of_not_ok (by simp [item]))]
        rfl
      · exact (items_of_ok item).symm

theorem yields_of_enough {scan : Scan} {calls : Nat} (enough : scan.rest.count '$' < calls) :
    scan.yields calls = scan.items := by
  have all := yields_append_items scan calls
  rwa [items_of_done (done_after enough), List.append_nil] at all

theorem length_items_le (scan : Scan) : scan.items.length ≤ scan.rest.count '$' := by
  obtain ⟨passed, passes⟩ := scan.passes (scan.rest.count '$' + 1)
  have within : passed.count '$' ≤ scan.rest.count '$' := by
    conv => rhs; rw [passes.rest]
    rw [List.count_append]
    exact Nat.le_add_right _ _
  rw [← yields_of_enough (Nat.lt_succ_self _)]
  exact Nat.le_trans passes.yielded within

end Scan

/-! ## Well-formed readings -/

namespace Cursor

/-- The cursor stands where the scan does. -/
structure Tracks (cursor : Cursor) (scan : Scan) : Prop where
  phrase : cursor.phrase = scan.phrase
  rest : Text.behind? cursor.phrase cursor.pos = some (.ofList scan.rest)
  depth : cursor.depth = scan.depth
  seen : cursor.seen = scan.seen
  done : cursor.done = scan.done

/-- What holds of a cursor that has yielded these items. -/
structure WellFormed (cursor : Cursor) (yielded : List ScanItem) : Prop where
  within : cursor.pos ≤ cursor.phrase.utf8ByteSize
  boundary : String.Pos.Raw.IsValid cursor.phrase ⟨cursor.pos⟩
  shallow : ∃ before ∈ Text.before? cursor.phrase cursor.pos,
    cursor.depth ≤ openers before.toList ∧ openers before.toList ≤ cursor.pos
  seen : cursor.seen = yielded.filterMap Scan.itemName?
  distinct : cursor.seen.Nodup

end Cursor

namespace Scan

theorem tracks_cursor {scan : Scan} {before : List Char}
    (place : (scan.cursor before).Between before scan.rest) : (scan.cursor before).Tracks scan :=
  ⟨rfl, place.slice, rfl, rfl, rfl⟩

theorem between_start (phrase : String) :
    ((start phrase).cursor []).Between [] (start phrase).rest :=
  ⟨rfl, rfl, Nat.le_refl 0⟩

theorem Passes.wellFormed {phrase : String} {calls : Nat} {before : List Char}
    (passes : (start phrase).Passes calls before) :
    (((start phrase).after calls).cursor before).WellFormed ((start phrase).yields calls) := by
  have place := (passes.cursor [] (between_start phrase)).2
  have boundary := Text.isValid_of_split place.split
  refine ⟨boundary.le_utf8ByteSize, boundary, ⟨_, (Text.slices_of_split place.split).1, ?_⟩, ?_, ?_⟩
  · have shallow := depthAfter_le 0 before
    rw [String.toList_ofList]
    exact ⟨by rw [Nat.zero_add] at shallow; exact Nat.le_trans (Nat.le_of_eq passes.depth) shallow,
      openers_le_size before⟩
  · exact seen_after (start phrase) calls
  · exact nodup_seen_after List.nodup_nil calls

/-- **A reading stays well formed, and it ends.** A cursor that is called as often as the scan
never fails and stands where the scan does. Its offset is a boundary of the phrase, its depth is
bounded by the openers before it, and it has seen the names that have been yielded, in order and
without repetition. A step that yields an occurrence moves it on, any other step ends the reading,
and then nothing changes any more. Reading to the end yields no more than there are `$`, and it is
over with the first step behind these. -/
theorem reading_well_formed (phrase : String) (calls : Nat) :
    ∃ (cursor : Cursor) (step : CursorStep),
      (Cursor.start phrase).after calls = some cursor ∧
      cursor.Tracks ((start phrase).after calls) ∧
      cursor.next = some step ∧
      step.events = ((start phrase).after calls).next.events ∧
      step.item = ((start phrase).after calls).next.item ∧
      step.cursor.Tracks ((start phrase).after calls).next.scan ∧
      cursor.phrase = phrase ∧ cursor.WellFormed ((start phrase).yields calls) ∧
      (∀ occurrence, step.item = some (.ok occurrence) → cursor.pos < step.cursor.pos) ∧
      ((∀ occurrence, step.item ≠ some (.ok occurrence)) → step.cursor.done = true) ∧
      (cursor.done = true → step = ⟨[], none, cursor⟩) ∧
      (start phrase).items.length ≤ phrase.toList.count '$' ∧
      (phrase.toList.count '$' < calls →
        cursor.done = true ∧ (start phrase).yields calls = (start phrase).items) := by
  obtain ⟨before, passes⟩ := (start phrase).passes calls
  obtain ⟨ran, place⟩ := passes.cursor [] (between_start phrase)
  obtain ⟨passed, reads⟩ := ((start phrase).after calls).next_reads
  have moved := reads.cursor place
  refine ⟨((start phrase).after calls).cursor before, _, ran, tracks_cursor place, moved, rfl, rfl,
    tracks_cursor (reads.between place), phrase_after _ _, passes.wellFormed, ?_, done_of_not_ok, ?_,
    length_items_le (start phrase), fun enough => ⟨?_, ?_⟩⟩
  · intro occurrence item
    have further := reads.size_pos item
    change Text.size before < Text.size (before ++ passed)
    rw [Text.size_append]
    omega
  · intro done
    exact Option.some.inj (moved.symm.trans (Cursor.next_of_done done))
  · exact @done_after (start phrase) calls enough
  · exact @yields_of_enough (start phrase) calls enough

end Scan

end VoiceGrammar
