/-
# Brackets: how deep a reference stands, and what is reported of them

Both kinds of brackets share one depth. An opener adds one to it; a closer takes one
away, unless no group is open. So the depth behind a text is not its openers less its
closers (`excess`). It is the largest excess of a text that ends there
(`depthAfter_isGreatest`), and a reference is optional if such a text has more openers than
closers.

A closer that finds no open group is skipped and reported (`unmatchedClosers`). Depth,
excess and skipped closers are bound by one law (`depthAfter_eq`), so the closers skipped
are as many as the largest excess of closers at the beginning of the text
(`length_unmatchedClosers_isGreatest`).

`Scan.after` is the state behind a number of single steps and `Scan.reported` what these
report. A step and a whole reading that begins behind it report what a whole reading
reports (`Scan.reported_append_warnings`), so it does not matter how a phrase is read.
-/
import Mathlib.Data.List.Infix
import Mathlib.Order.Bounds.Basic
import VoiceGrammar.Proofs.PhraseLayout

namespace VoiceGrammar

set_option autoImplicit false

/-! ## Depth -/

namespace Phrase

/-- The depth behind a text that begins at `depth`. -/
def depthAfter (depth : Nat) (text : List Char) : Nat :=
  text.foldl deepen depth

/-- The closers that a text has outside every group, if it begins at `depth`. -/
def straysIn : Nat → List Char → List Char
  | _, [] => []
  | depth, c :: text =>
    (if isCloser c && depth == 0 then [c] else []) ++ straysIn (deepen depth c) text

/-- Literal text is read to its end, or up to the `$` behind it. -/
theorem literal_plain {opening : List Char} (plain : '$' ∉ opening) (depth : Nat) :
    literal depth opening = (straysIn depth opening, depthAfter depth opening, none) ∧
    ∀ text, literal depth (opening ++ '$' :: text) =
      (straysIn depth opening, depthAfter depth opening, some text) := by
  induction opening generalizing depth with
  | nil => exact ⟨rfl, fun text => rfl⟩
  | cons c opening ih =>
      rw [List.mem_cons, not_or] at plain
      obtain ⟨ended, followed⟩ := ih plain.2 (deepen depth c)
      refine ⟨?_, fun text => ?_⟩
      · rw [literal_cons (Ne.symm plain.1), ended]
        rfl
      · rw [List.cons_append, literal_cons (Ne.symm plain.1), followed]
        rfl

theorem depthAfter_append (depth : Nat) (text more : List Char) :
    depthAfter depth (text ++ more) = depthAfter (depthAfter depth text) more :=
  List.foldl_append

theorem straysIn_append (depth : Nat) (text more : List Char) :
    straysIn depth (text ++ more) =
      straysIn depth text ++ straysIn (depthAfter depth text) more := by
  induction text generalizing depth with
  | nil => rfl
  | cons c text ih =>
      rw [List.cons_append, straysIn, ih, straysIn, List.append_assoc]
      rfl

/-- Text without brackets changes nothing. -/
theorem depthAfter_flat {text : List Char}
    (flat : ∀ c ∈ text, isOpener c = false ∧ isCloser c = false) (depth : Nat) :
    depthAfter depth text = depth ∧ straysIn depth text = [] := by
  induction text with
  | nil => exact ⟨rfl, rfl⟩
  | cons c text ih =>
      obtain ⟨opener, closer⟩ := flat c List.mem_cons_self
      have same : deepen depth c = depth := by simp [deepen, opener, closer]
      obtain ⟨after, strays⟩ := ih fun d member => flat d (List.mem_cons_of_mem _ member)
      refine ⟨?_, ?_⟩
      · rw [depthAfter, List.foldl_cons, same]
        exact after
      · rw [straysIn, same, strays, closer]
        rfl

theorem Reference.body_flat (reference : Reference) :
    ∀ c ∈ reference.body, isOpener c = false ∧ isCloser c = false := by
  have flat : ∀ c, isTagChar c = true ∨ c = ':' → isOpener c = false ∧ isCloser c = false := by
    intro c kind
    constructor
    · by_contra bracket
      rw [Bool.not_eq_false, isOpener, Bool.or_eq_true, beq_iff_eq, beq_iff_eq] at bracket
      rcases bracket with rfl | rfl <;> revert kind <;> decide
    · by_contra bracket
      rw [Bool.not_eq_false, isCloser, Bool.or_eq_true, beq_iff_eq, beq_iff_eq] at bracket
      rcases bracket with rfl | rfl <;> revert kind <;> decide
  intro c member
  rcases List.mem_append.mp member with inTag | inName
  · exact flat c (.inl (reference.tag_chars c inTag))
  · rcases List.mem_cons.mp inName with colon | inName
    · exact flat c (.inr colon)
    · refine flat c (.inl ?_)
      have name := reference.name_chars c inName
      rw [isNameChar, Bool.or_eq_true] at name
      rw [isTagChar, Bool.or_eq_true, Bool.or_eq_true]
      exact .inl name

/-- Behind a reference the depth is that before it, and nothing is skipped in it. -/
theorem through_reference (depth : Nat) (opening : List Char) (reference : Reference)
    (text : List Char) :
    depthAfter depth (opening ++ '$' :: (reference.body ++ text)) =
      depthAfter (depthAfter depth opening) text ∧
    straysIn depth (opening ++ '$' :: (reference.body ++ text)) =
      straysIn depth opening ++ straysIn (depthAfter depth opening) text := by
  have flat : ∀ c ∈ '$' :: reference.body, isOpener c = false ∧ isCloser c = false := by
    intro c member
    rcases List.mem_cons.mp member with rfl | inBody
    · decide
    · exact reference.body_flat c inBody
  obtain ⟨level, skipped⟩ := depthAfter_flat flat (depthAfter depth opening)
  rw [← List.cons_append]
  constructor
  · rw [depthAfter_append, depthAfter_append, level]
  · rw [straysIn_append, straysIn_append, level, skipped, List.nil_append]

theorem count_dollar_through {opening : List Char} (plain : '$' ∉ opening) (reference : Reference)
    (text : List Char) :
    (opening ++ '$' :: (reference.body ++ text)).count '$' = text.count '$' + 1 := by
  rw [List.count_append, List.count_cons_self, List.count_append, List.count_eq_zero.mpr plain,
    List.count_eq_zero.mpr reference.dollar_not_mem_body]
  omega

/-- What is reported at the end of a phrase, at that depth. -/
def unclosed (phrase : String) (depth : Nat) : List Event :=
  if 0 < depth then [.unclosedGroup phrase depth] else []

end Phrase

/-! ## One step of reading -/

namespace Scan

open Phrase

variable {scan : Scan}

theorem events_of_plain (reading : scan.done = false) (plain : '$' ∉ scan.rest) :
    scan.next.events =
      (straysIn scan.depth scan.rest).map (.unmatchedCloser scan.phrase) ++
        if depthAfter scan.depth scan.rest > 0 then
          [.unclosedGroup scan.phrase (depthAfter scan.depth scan.rest)]
        else [] := by
  simp [next, reading, (literal_plain plain scan.depth).1]

theorem next_of_dollar {opening text : List Char} (reading : scan.done = false)
    (plain : '$' ∉ opening) (rest : scan.rest = opening ++ '$' :: text) :
    scan.next.events = (straysIn scan.depth opening).map (.unmatchedCloser scan.phrase) ∧
    scan.next.scan.depth = depthAfter scan.depth opening := by
  simp only [next, reading, rest, (literal_plain plain scan.depth).2 text]
  split
  · contradiction
  · split
    · exact ⟨rfl, rfl⟩
    · split <;> exact ⟨rfl, rfl⟩

end Scan

/-! ## Openers and closers -/

namespace Phrase

def openers (text : List Char) : Nat :=
  text.countP isOpener

def closers (text : List Char) : Nat :=
  text.countP isCloser

/-- How many more openers than closers there are, of whichever kind. -/
def excess (text : List Char) : Int :=
  openers text - closers text

@[simp] theorem excess_nil : excess [] = 0 := rfl

@[simp] theorem excess_append (text more : List Char) :
    excess (text ++ more) = excess text + excess more := by
  simp only [excess, openers, closers, List.countP_append]
  omega

theorem excess_cons (c : Char) (text : List Char) : excess (c :: text) = excess [c] + excess text :=
  excess_append [c] text

theorem excess_singleton (c : Char) :
    excess [c] = if isOpener c then 1 else if isCloser c then -1 else 0 := by
  by_cases opener : isOpener c = true
  · simp [excess, openers, closers, opener, isCloser_of_isOpener opener]
  · by_cases closer : isCloser c = true <;> simp [excess, openers, closers, opener, closer]

theorem deepen_eq_max (depth : Nat) (c : Char) :
    (deepen depth c : Int) = max 0 (depth + excess [c]) := by
  rw [deepen, excess_singleton]
  split
  · omega
  · split <;> omega

/-- What a closer fails to take away is skipped. -/
theorem deepen_eq (depth : Nat) (c : Char) :
    (deepen depth c : Int) =
      depth + excess [c] + (if isCloser c && depth == 0 then [c] else []).length := by
  rw [deepen, excess_singleton]
  by_cases opener : isOpener c = true
  · simp [opener, isCloser_of_isOpener opener]
  · by_cases closer : isCloser c = true
    · cases depth with
      | zero => simp [opener, closer]
      | succ outer =>
          rw [if_neg opener, if_pos closer, if_neg opener, if_pos closer, closer]
          change (outer : Int) = (outer + 1 : Nat) + -1 + (0 : Nat)
          omega
    · simp [opener, closer]

/-- **The depth is what was opened and not closed**, and a skipped closer closes nothing. -/
theorem depthAfter_eq (depth : Nat) (text : List Char) :
    (depthAfter depth text : Int) = depth + excess text + (straysIn depth text).length := by
  induction text generalizing depth with
  | nil => simp [depthAfter, straysIn]
  | cons c text ih =>
      have here := deepen_eq depth c
      have rest := ih (deepen depth c)
      rw [straysIn, List.length_append, excess_cons]
      change (depthAfter (deepen depth c) text : Int) = _
      omega

/-! ## The depth is a maximum over the ends of the text -/

theorem isGreatest_suffix_concat {text : List Char} {depth : Int}
    (greatest : IsGreatest {n | ∃ s, s <:+ text ∧ excess s = n} depth) (c : Char) :
    IsGreatest {n | ∃ s, s <:+ text ++ [c] ∧ excess s = n} (max 0 (depth + excess [c])) := by
  obtain ⟨⟨deepest, ends, rfl⟩, bound⟩ := greatest
  constructor
  · rcases le_total 0 (excess deepest + excess [c]) with inside | outside
    · refine ⟨deepest ++ [c], ?_, ?_⟩
      · obtain ⟨before, rfl⟩ := ends
        exact ⟨before, (List.append_assoc _ _ _).symm⟩
      · rw [excess_append, max_eq_right inside]
    · exact ⟨[], List.nil_suffix, (max_eq_left outside).symm⟩
  · rintro _ ⟨s, ends', rfl⟩
    rcases List.suffix_concat_iff.mp ends' with rfl | ⟨shorter, rfl, earlier⟩
    · exact le_max_left _ _
    · have least : excess shorter ≤ excess deepest := bound ⟨shorter, earlier, rfl⟩
      rw [excess_append]
      omega

/-- **The depth is the largest excess of a text that ends here.** -/
theorem depthAfter_isGreatest (text : List Char) :
    IsGreatest {n | ∃ s, s <:+ text ∧ excess s = n} (depthAfter 0 text : Int) := by
  induction text using List.reverseRecOn with
  | nil =>
      refine ⟨⟨[], List.nil_suffix, rfl⟩, ?_⟩
      rintro _ ⟨s, ends, rfl⟩
      rw [List.suffix_nil.mp ends]
      exact le_refl 0
  | append_singleton text c ih =>
      have step := isGreatest_suffix_concat ih c
      rw [← deepen_eq_max] at step
      rw [depthAfter_append]
      exact step

theorem depthAfter_pos_iff (text : List Char) :
    0 < depthAfter 0 text ↔ ∃ s, s <:+ text ∧ closers s < openers s := by
  obtain ⟨⟨deepest, ends, same⟩, bound⟩ := depthAfter_isGreatest text
  constructor
  · intro inside
    refine ⟨deepest, ends, ?_⟩
    rw [excess] at same
    omega
  · rintro ⟨s, ends', more⟩
    have least : excess s ≤ depthAfter 0 text := bound ⟨s, ends', rfl⟩
    rw [excess] at least
    omega

/-! ## Closers that close nothing -/

/-- The closers of a text that have nothing to close, each with the place where it stands: no text
that ends before such a closer has more openers than closers. -/
def unmatchedClosers (text : List Char) : List (Char × Nat) :=
  text.zipIdx.filter fun closer =>
    isCloser closer.1 && (text.take closer.2).tails.all fun s => openers s ≤ closers s

theorem all_tails_eq (text : List Char) :
    (text.tails.all fun s => openers s ≤ closers s) = (depthAfter 0 text == 0) := by
  rw [Bool.eq_iff_iff, List.all_eq_true, beq_iff_eq]
  have inside := depthAfter_pos_iff text
  constructor
  · intro all
    by_contra deep
    obtain ⟨s, ends, more⟩ := inside.mp (by omega)
    have least : openers s ≤ closers s := of_decide_eq_true (all s ((List.mem_tails s text).mpr ends))
    omega
  · intro flat s member
    by_contra more
    have deep := inside.mpr ⟨s, (List.mem_tails s text).mp member, by simpa using more⟩
    omega

theorem unmatchedClosers_concat (text : List Char) (c : Char) :
    unmatchedClosers (text ++ [c]) =
      unmatchedClosers text ++
        if isCloser c && depthAfter 0 text == 0 then [(c, text.length)] else [] := by
  have earlier : (text.zipIdx.filter fun closer => isCloser closer.1 &&
        ((text ++ [c]).take closer.2).tails.all fun s => openers s ≤ closers s) =
      unmatchedClosers text := by
    refine List.filter_congr fun closer member => ?_
    have within : closer.2 < text.length := (List.mem_zipIdx' member).1
    rw [List.take_append_of_le_length (Nat.le_of_lt within)]
  rw [unmatchedClosers, List.zipIdx_append, List.filter_append, earlier, List.zipIdx_singleton,
    List.filter_singleton, Nat.zero_add, List.take_left, all_tails_eq, cond_eq_ite]

/-- Reading skips the unmatched closers, in order. -/
theorem straysIn_eq (text : List Char) : straysIn 0 text = (unmatchedClosers text).map Prod.fst := by
  induction text using List.reverseRecOn with
  | nil => rfl
  | append_singleton text c ih =>
      rw [straysIn_append, unmatchedClosers_concat, List.map_append, ← ih]
      congr 1
      rw [straysIn, straysIn, List.append_nil]
      split <;> rfl

theorem depthAfter_eq_excess (text : List Char) :
    (depthAfter 0 text : Int) = excess text + (unmatchedClosers text).length := by
  have law := depthAfter_eq 0 text
  rw [straysIn_eq, List.length_map] at law
  omega

/-- **The skipped closers are as many as the largest excess of closers at the beginning.** What
stands before an end of the text is a beginning of it, so this is `depthAfter_isGreatest` seen
from the other side. -/
theorem length_unmatchedClosers_isGreatest (text : List Char) :
    IsGreatest {n | ∃ w, w <+: text ∧ (closers w : Int) - openers w = n}
      ((unmatchedClosers text).length : Int) := by
  have law := depthAfter_eq_excess text
  obtain ⟨⟨deepest, ⟨before, split⟩, same⟩, bound⟩ := depthAfter_isGreatest text
  constructor
  · refine ⟨before, ⟨deepest, split⟩, ?_⟩
    have whole : excess text = excess before + excess deepest := by rw [← split, excess_append]
    have first : excess before = openers before - closers before := rfl
    omega
  · rintro _ ⟨w, ⟨behind, rfl⟩, rfl⟩
    have least : excess behind ≤ depthAfter 0 (w ++ behind) :=
      bound ⟨behind, List.suffix_append w behind, rfl⟩
    have whole := excess_append w behind
    have first : excess w = openers w - closers w := rfl
    omega

/-- There are as many closers as openers, and no beginning of the text has more of them than of
openers. The two kinds are not told apart. -/
structure Balanced (text : List Char) : Prop where
  closed : openers text = closers text
  opened : ∀ w, w <+: text → closers w ≤ openers w

theorem balanced_iff (text : List Char) :
    Balanced text ↔ unmatchedClosers text = [] ∧ depthAfter 0 text = 0 := by
  have law := depthAfter_eq_excess text
  have whole : excess text = openers text - closers text := rfl
  obtain ⟨⟨w, begins, same⟩, bound⟩ := length_unmatchedClosers_isGreatest text
  rw [← List.length_eq_zero_iff]
  constructor
  · intro balanced
    have closed := balanced.closed
    have opened := balanced.opened w begins
    omega
  · rintro ⟨none, flat⟩
    refine ⟨by omega, fun w begins => ?_⟩
    have least : (closers w : Int) - openers w ≤ (unmatchedClosers text).length :=
      bound ⟨w, begins, rfl⟩
    omega

end Phrase

/-! ## Reading step by step -/

namespace Scan

open Phrase

/-- The state behind the first `calls` steps of reading. -/
def after : Nat → Scan → Scan
  | 0, scan => scan
  | calls + 1, scan => after calls scan.next.scan

/-- What the first `calls` steps of reading report. -/
def reported : Nat → Scan → List Event
  | 0, _ => []
  | calls + 1, scan => scan.next.events ++ reported calls scan.next.scan

def Signal.event? : Signal → Option Event
  | .event warning => some warning
  | _ => none

/-- What reading to the end reports. -/
def warnings (scan : Scan) : List Event :=
  scan.drain.1.filterMap Signal.event?

variable {scan : Scan}

theorem next_of_done (done : scan.done = true) : scan.next = ⟨[], none, scan⟩ := by
  simp [next, done]

theorem after_of_done (done : scan.done = true) (calls : Nat) : scan.after calls = scan := by
  induction calls with
  | zero => rfl
  | succ calls ih => rwa [after, next_of_done done]

theorem reported_of_done (done : scan.done = true) (calls : Nat) : scan.reported calls = [] := by
  induction calls with
  | zero => rfl
  | succ calls ih => rwa [reported, next_of_done done]

/-- A step that yields no occurrence is the last one. -/
theorem done_of_not_ok (other : ∀ occurrence, scan.next.item ≠ some (.ok occurrence)) :
    scan.next.scan.done = true := by
  cases reading : scan.done with
  | true => rwa [next_of_done reading]
  | false =>
      cases advances reading with
      | finished plain nothing done => exact done
      | stopped plain rest ends item done => exact done
      | read depth reference plain rest ends fresh item after => exact absurd item (other _)

theorem filterMap_event?_events (events : List Event) :
    (events.map Signal.event).filterMap Signal.event? = events := by
  rw [List.filterMap_map]
  exact List.filterMap_some

theorem warnings_of_none (nothing : scan.next.item = none) : scan.warnings = scan.next.events := by
  rw [warnings, drain_of_none nothing, filterMap_event?_events]

theorem warnings_of_error {error : PhraseError} (item : scan.next.item = some (.error error)) :
    scan.warnings = scan.next.events := by
  rw [warnings, drain_of_error item, List.filterMap_append, filterMap_event?_events]
  exact List.append_nil _

theorem warnings_of_ok {occurrence : Occurrence} (item : scan.next.item = some (.ok occurrence)) :
    scan.warnings = scan.next.events ++ scan.next.scan.warnings := by
  rw [warnings, drain_of_ok item, List.filterMap_append, filterMap_event?_events]
  rfl

theorem warnings_of_done (done : scan.done = true) : scan.warnings = [] := by
  have stays := next_of_done done
  rw [warnings_of_none (by rw [stays]), stays]

theorem next_append_warnings (scan : Scan) :
    scan.next.events ++ scan.next.scan.warnings = scan.warnings := by
  rcases item : scan.next.item with _ | error | occurrence
  · rw [warnings_of_none item, warnings_of_done (done_of_not_ok (by simp [item])), List.append_nil]
  · rw [warnings_of_error item, warnings_of_done (done_of_not_ok (by simp [item])), List.append_nil]
  · exact (warnings_of_ok item).symm

/-- **However many steps come first, the same is reported in the end.** -/
theorem reported_append_warnings (scan : Scan) (calls : Nat) :
    scan.reported calls ++ (scan.after calls).warnings = scan.warnings := by
  induction calls generalizing scan with
  | zero => rfl
  | succ calls ih => rw [reported, after, List.append_assoc, ih, next_append_warnings]

theorem done_drain (scan : Scan) : scan.drain.2.done = true := by
  induction size : scan.rest.length using Nat.strongRecOn generalizing scan with
  | ind size ih =>
      rw [drain]
      split
      · rename_i nothing
        exact done_of_not_ok (by simp [nothing])
      · rename_i error item
        exact done_of_not_ok (by simp [item])
      · rename_i occurrence item
        exact ih _ (size ▸ next_rest_length scan item) _ rfl

/-- The occurrence of a step is that of the same number in a whole reading. -/
theorem getElem?_occurrences (scan : Scan) (calls : Nat) :
    (scan.items.filterMap Except.toOption)[calls]? =
      (scan.after calls).next.item.bind Except.toOption := by
  induction calls generalizing scan with
  | zero =>
      rcases item : scan.next.item with _ | error | occurrence
      · simp [items_of_none item, after, item]
      · simp [items_of_error item, after, item, Except.toOption]
      · simp [items_of_ok item, after, item, Except.toOption]
  | succ calls ih =>
      rcases item : scan.next.item with _ | error | occurrence
      · have done := @done_of_not_ok scan (by simp [item])
        simp [items_of_none item, after, after_of_done done, next_of_done done]
      · have done := @done_of_not_ok scan (by simp [item])
        rw [items_of_error item, after, after_of_done done, next_of_done done]
        rfl
      · rw [items_of_ok item, after, ← ih scan.next.scan]
        rfl

/-! ## Depth and warnings along a reading -/

/-- Where a yielded occurrence stands: behind as many `$` signs as there were steps, and at the
depth of the text before it. -/
theorem exists_before_of_yielded (reading : scan.done = false) {calls : Nat}
    {occurrence : Occurrence} (yielded : (scan.after calls).next.item = some (.ok occurrence)) :
    ∃ before : List Char,
      scan.rest = before ++ '$' :: (occurrence.tag.toList ++ ':' :: (occurrence.name.toList ++
        (scan.after (calls + 1)).rest)) ∧
      before.count '$' = calls ∧
      (scan.after (calls + 1)).depth = depthAfter scan.depth before ∧
      (occurrence.optional = true ↔ 0 < depthAfter scan.depth before) := by
  -- along the steps; each that is not the last passes one reference, at an unchanged depth
  induction calls generalizing scan with
  | zero =>
      cases advances reading with
      | finished plain nothing done => simp [after, nothing] at yielded
      | stopped plain rest ends item done => simp [after, item] at yielded
      | @read opening behind depth reference plain rest ends fresh item next =>
          obtain rfl : ⟨reference.tag, reference.name, depth > 0⟩ = occurrence := by
            simpa [after, item] using yielded
          have level : depth = depthAfter scan.depth opening := by
            rw [← (next_of_dollar reading plain rest).2, next]
          refine ⟨opening, ?_, List.count_eq_zero.mpr plain, ?_, ?_⟩
          · rw [rest, after, after, next, Reference.body, List.append_assoc]
            rfl
          · rw [after, after, next, level]
          · rw [level, decide_eq_true_iff]
  | succ calls ih =>
      cases advances reading with
      | finished plain nothing done =>
          simp [after, after_of_done done, next_of_done done] at yielded
      | stopped plain rest ends item done =>
          simp [after, after_of_done done, next_of_done done] at yielded
      | @read opening behind depth reference plain rest ends fresh item next =>
          have reading' : scan.next.scan.done = false := by rw [next]; exact reading
          obtain ⟨before, rest', counted, level, optional⟩ := ih reading' yielded
          have passed : depthAfter scan.depth (opening ++ '$' :: (reference.body ++ before)) =
              depthAfter scan.next.scan.depth before := by
            rw [(next_of_dollar reading plain rest).2, (through_reference _ _ _ _).1]
          refine ⟨opening ++ '$' :: (reference.body ++ before), ?_, ?_, ?_, ?_⟩
          · rw [rest]
            rw [next] at rest'
            simp only [after, next, List.append_assoc, List.cons_append] at rest' ⊢
            rw [← rest']
          · rw [count_dollar_through plain, counted]
          · rw [passed]
            exact level
          · rw [passed]
            exact optional

/-- What a whole reading reports, by how it ends. -/
inductive Warned (scan : Scan) : Prop where
  | finished (sound : scan.items.findSome? itemError? = none)
      (warnings : scan.warnings =
        (straysIn scan.depth scan.rest).map (.unmatchedCloser scan.phrase) ++
          unclosed scan.phrase (depthAfter scan.depth scan.rest))
  | stopped {before text : List Char} (error : PhraseError)
      (faulty : scan.items.findSome? itemError? = some error)
      (rest : scan.rest = before ++ '$' :: text)
      (counted : before.count '$' = (scan.items.filterMap Except.toOption).length)
      (warnings : scan.warnings =
        (straysIn scan.depth before).map (.unmatchedCloser scan.phrase))

/-- Reading reports the skipped closers of what it has read, and the depth at the end if it gets
there. -/
theorem warned (reading : scan.done = false) : Warned scan := by
  -- on the text still to be read; how the rest ends is how the whole ends
  induction size : scan.rest.length using Nat.strongRecOn generalizing scan with
  | ind size ih =>
      cases advances reading with
      | finished plain nothing done =>
          refine .finished ?_ ?_
          · rw [items_of_none nothing]
            rfl
          · rw [warnings_of_none nothing, events_of_plain reading plain]
            rfl
      | @stopped opening text fault plain rest ends item done =>
          refine .stopped fault ?_ rest ?_ ?_
          · rw [items_of_error item]
            rfl
          · rw [items_of_error item, List.count_eq_zero.mpr plain]
            rfl
          · rw [warnings_of_error item, (next_of_dollar reading plain rest).1]
      | @read opening behind depth reference plain rest ends fresh item next =>
          have shorter := next_rest_length scan item
          have reading' : scan.next.scan.done = false := by rw [next]; exact reading
          obtain ⟨reported, level⟩ := next_of_dollar reading plain rest
          have same : scan.next.scan.phrase = scan.phrase := by rw [next]
          have behind' : scan.next.scan.rest = behind := by rw [next]
          have through := through_reference scan.depth opening reference
          rw [← level] at through
          cases ih _ (by omega) reading' rfl with
          | finished sound warnings =>
              refine .finished ?_ ?_
              · rw [items_of_ok item]
                exact sound
              · rw [warnings_of_ok item, warnings, reported, rest, (through behind).1,
                  (through behind).2, same, behind', List.map_append, List.append_assoc]
          | @stopped before text error faulty rest' counted warnings =>
              refine @Warned.stopped scan (opening ++ '$' :: (reference.body ++ before)) text error
                ?_ ?_ ?_ ?_
              · rw [items_of_ok item]
                exact faulty
              · rw [rest, ← behind', rest']
                simp
              · rw [items_of_ok item, count_dollar_through plain, counted]
                rfl
              · rw [warnings_of_ok item, warnings, reported, (through before).2, same,
                  List.map_append]

end Scan

namespace Event

def isUnmatchedCloser : Event → Bool
  | unmatchedCloser .. => true
  | _ => false

def isUnclosedGroup : Event → Bool
  | unclosedGroup .. => true
  | _ => false

end Event

namespace Phrase

/-! ## Whole phrases -/

theorem events_eq_warnings (phrase : String) : events phrase = (Scan.start phrase).warnings := rfl

/-- **A reference is optional exactly if a group before it is still open.** The occurrence that a
step yields stands behind the `$` with as many others before it as there were steps. Its depth is
the largest number of openers less closers in a text that ends there, and it is optional if some
such text has more openers than closers. -/
theorem optional_iff_unclosed_opener {phrase : String} {calls : Nat} {occurrence : Occurrence}
    (yielded : ((Scan.start phrase).after calls).next.item = some (.ok occurrence)) :
    (occurrences phrase)[calls]? = some occurrence ∧
    ∃ before : List Char,
      phrase.toList = before ++ '$' :: (occurrence.tag.toList ++ ':' :: (occurrence.name.toList ++
        ((Scan.start phrase).after (calls + 1)).rest)) ∧
      before.count '$' = calls ∧
      IsGreatest {n | ∃ s, s <:+ before ∧ (openers s : Int) - closers s = n}
        (((Scan.start phrase).after (calls + 1)).depth : Int) ∧
      (occurrence.optional = true ↔ ∃ s, s <:+ before ∧ closers s < openers s) := by
  obtain ⟨before, rest, counted, level, optional⟩ :=
    @Scan.exists_before_of_yielded (Scan.start phrase) rfl calls occurrence yielded
  refine ⟨?_, before, rest, counted, ?_, optional.trans (depthAfter_pos_iff before)⟩
  · rw [occurrences_eq_items, Scan.getElem?_occurrences, yielded]
    rfl
  · rw [level]
    exact depthAfter_isGreatest before

/-- A closer too many does not count against the group that is opened behind it. -/
theorem optional_iff_unclosed_opener_when :
    let phrase := ") go ([to $Place:where] $Time:when"
    ((Scan.start phrase).after 1).next.item = some (.ok ⟨"Time", "when", true⟩) ∧
    ∃ before : List Char, phrase.toList = before ++ "$Time:when".toList ∧ before.count '$' = 1 ∧
      IsGreatest {n | ∃ s, s <:+ before ∧ (openers s : Int) - closers s = n} 1 ∧
      ∃ s, s <:+ before ∧ closers s < openers s := by
  intro phrase
  have yielded : ((Scan.start phrase).after 1).next.item = some (.ok ⟨"Time", "when", true⟩) := by
    decide +kernel
  obtain ⟨-, before, split, counted, greatest, optional⟩ := optional_iff_unclosed_opener yielded
  have rest : ((Scan.start phrase).after 2).rest = [] := by decide +kernel
  have depth : ((Scan.start phrase).after 2).depth = 1 := by decide +kernel
  rw [rest] at split
  rw [depth] at greatest
  exact ⟨yielded, before, split, counted, greatest, optional.mp rfl⟩

/-- The warnings for the closers of a text that have nothing to close. -/
def skipped (phrase : String) (text : List Char) : List Event :=
  (unmatchedClosers text).map fun closer => .unmatchedCloser phrase closer.1

/-- What is reported of a phrase that is read to its end, and of one that is not. -/
theorem events_cases (phrase : String) :
    (fault? phrase = none ∧ events phrase =
      skipped phrase phrase.toList ++ unclosed phrase (depthAfter 0 phrase.toList)) ∨
    ∃ error before text, fault? phrase = some error ∧ phrase.toList = before ++ '$' :: text ∧
      before.count '$' = (occurrences phrase).length ∧ events phrase = skipped phrase before := by
  have strays : ∀ text, (straysIn 0 text).map (.unmatchedCloser phrase) = skipped phrase text := by
    intro text
    rw [straysIn_eq, List.map_map]
    rfl
  rw [fault?_eq_items, occurrences_eq_items, events_eq_warnings]
  cases @Scan.warned (Scan.start phrase) rfl with
  | finished sound warnings => exact .inl ⟨sound, warnings.trans (by rw [← strays]; rfl)⟩
  | stopped error faulty rest counted warnings =>
      exact .inr ⟨error, _, _, faulty, rest, counted, warnings.trans (strays _)⟩

theorem countP_skipped (phrase : String) (text : List Char) :
    (skipped phrase text).countP Event.isUnmatchedCloser = (unmatchedClosers text).length ∧
    (skipped phrase text).countP Event.isUnclosedGroup = 0 := by
  rw [skipped, List.countP_map, List.countP_map]
  constructor
  · exact List.countP_eq_length.mpr fun _ _ => rfl
  · exact List.countP_eq_zero.mpr fun _ _ => nofun

theorem countP_unclosed (phrase : String) (depth : Nat) :
    (unclosed phrase depth).countP Event.isUnmatchedCloser = 0 ∧
    (unclosed phrase depth).countP Event.isUnclosedGroup ≤ 1 := by
  unfold unclosed
  split <;> simp [Event.isUnmatchedCloser, Event.isUnclosedGroup]

theorem skipped_append_unclosed_eq_nil (phrase : String) (text : List Char) :
    skipped phrase text ++ unclosed phrase (depthAfter 0 text) = [] ↔ Balanced text := by
  rw [balanced_iff, List.append_eq_nil_iff, skipped, List.map_eq_nil_iff, unclosed]
  refine and_congr_right fun _ => ?_
  split
  · rename_i deep
    exact ⟨nofun, fun flat => absurd flat (Nat.ne_of_gt deep)⟩
  · rename_i flat
    exact ⟨fun _ => Nat.eq_zero_of_not_pos flat, fun _ => rfl⟩

/-- **What is reported of brackets is what is wrong with them, once.** If a phrase is read to its end,
each closer that has nothing to close is reported where it stands, and then the depth if a group is
open. There are as many such closers as the largest excess of closers over openers in a beginning of
the phrase, and the depth is what the openers exceed the closers by, the skipped ones left out; so
nothing is reported exactly of balanced brackets. If reading stops at a `$`, the closers before it
are reported and nothing of the end. Single steps before a whole reading change nothing in this,
and steps behind it report nothing. -/
theorem bracket_defects_reported_once (phrase : String) :
    (fault? phrase = none →
      ∃ number depth : Nat,
        (events phrase).countP Event.isUnmatchedCloser = number ∧
        IsGreatest {n | ∃ w, w <+: phrase.toList ∧ (closers w : Int) - openers w = n}
          (number : Int) ∧
        (depth : Int) = openers phrase.toList - closers phrase.toList + number ∧
        events phrase = skipped phrase phrase.toList ++
          (if 0 < depth then [.unclosedGroup phrase depth] else []) ∧
        (events phrase = [] ↔ Balanced phrase.toList)) ∧
    (∀ error, fault? phrase = some error →
      ∃ before text, phrase.toList = before ++ '$' :: text ∧
        before.count '$' = (occurrences phrase).length ∧ events phrase = skipped phrase before) ∧
    (events phrase).countP Event.isUnclosedGroup ≤ 1 ∧
    ∀ calls, (Scan.start phrase).reported calls ++ ((Scan.start phrase).after calls).warnings =
        events phrase ∧
      ∀ more, ((Scan.start phrase).after calls).drain.2.reported more = [] := by
  refine ⟨fun sound => ?_, fun error faulty => ?_, ?_, fun calls => ⟨?_, fun more => ?_⟩⟩
  · rcases events_cases phrase with ⟨-, reported⟩ | ⟨error, _, _, faulty, -⟩
    · refine ⟨(unmatchedClosers phrase.toList).length, depthAfter 0 phrase.toList, ?_,
        length_unmatchedClosers_isGreatest _, depthAfter_eq_excess _, reported, ?_⟩
      · rw [reported, List.countP_append, (countP_skipped _ _).1, (countP_unclosed _ _).1,
          Nat.add_zero]
      · rw [reported, skipped_append_unclosed_eq_nil]
    · rw [sound] at faulty
      cases faulty
  · rcases events_cases phrase with ⟨sound, -⟩ | ⟨_, before, text, -, split, counted, reported⟩
    · rw [sound] at faulty
      cases faulty
    · exact ⟨before, text, split, counted, reported⟩
  · rcases events_cases phrase with ⟨-, reported⟩ | ⟨_, before, _, -, -, -, reported⟩
    · rw [reported, List.countP_append, (countP_skipped _ _).2, Nat.zero_add]
      exact (countP_unclosed _ _).2
    · rw [reported, (countP_skipped _ _).2]
      exact Nat.zero_le 1
  · rw [events_eq_warnings]
    exact Scan.reported_append_warnings _ calls
  · exact Scan.reported_of_done (Scan.done_drain _) more

/-- Two closers find no group to close, and one group is left open. -/
example : skipped "a) (b]] [" "a) (b]] [".toList =
      [.unmatchedCloser "a) (b]] [" ')', .unmatchedCloser "a) (b]] [" ']'] ∧
    depthAfter 0 "a) (b]] [".toList = 1 := by
  decide +kernel

end Phrase

end VoiceGrammar
