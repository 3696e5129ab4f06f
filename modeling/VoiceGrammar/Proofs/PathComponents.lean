/-
# What a path names, and how it can be written

The segments of a text are the pieces between its slashes (`Path.segments_eq_splitOn`), and the
components of a path are read off them: the first segment, or a slash where it is empty, and
those behind it that are neither empty nor a dot (`Path.components_of_segments`). From this the
operations on paths follow as operations on lists. The parent drops the last component
(`Path.components_of_parent?`), and joining a plain relative path to a base puts the components
one behind the other (`Path.components_join`).

Texts with the same components are those that can be respelled into each other: slashes may be
repeated, dots may stand between slashes, and a path may end in a slash
(`Path.components_eq_iff_respelled`). Every path can be respelled into one without any of these,
which its components determine.
-/
import Mathlib.Data.List.DropRight
import Mathlib.Logic.Relation
import VoiceGrammar.Path

namespace VoiceGrammar.Path

set_option autoImplicit false

/-! ## Segments -/

theorem segments_eq_splitOn (text : List Char) : segments text = text.splitOn '/' := by
  induction text with
  | nil => rfl
  | cons c text ih =>
      rw [segments, List.splitOn_cons_eq_if_modifyHead, ih]
      split
      · rfl
      · obtain ⟨first, later, cut⟩ :=
          List.exists_cons_of_ne_nil (List.splitOn_ne_nil '/' text)
        rw [cut]
        rfl

theorem segments_ne_nil (text : List Char) : segments text ≠ [] := by
  rw [segments_eq_splitOn]
  exact List.splitOn_ne_nil '/' text

theorem exists_segments_eq_cons (text : List Char) :
    ∃ first later, segments text = first :: later :=
  List.exists_cons_of_ne_nil (segments_ne_nil text)

theorem segments_append (before after : List Char) :
    segments (before ++ '/' :: after) = segments before ++ segments after := by
  simp only [segments_eq_splitOn, List.splitOn_append_cons_self]

/-- The text of segments in a row. -/
def spelling (first : List Char) (later : List (List Char)) : List Char :=
  first ++ later.flatMap ('/' :: ·)

theorem intercalate_eq_spelling (first : List Char) (later : List (List Char)) :
    ['/'].intercalate (first :: later) = spelling first later := by
  induction later generalizing first with
  | nil => simp [spelling]
  | cons second later ih =>
      rw [List.intercalate_cons_cons, ih]
      simp [spelling]

theorem spelling_of_segments {text first : List Char} {later : List (List Char)}
    (cut : segments text = first :: later) : text = spelling first later := by
  rw [← intercalate_eq_spelling, ← cut, segments_eq_splitOn, List.intercalate_splitOn]

theorem slash_not_mem_of_mem_segments {text segment : List Char} (member : segment ∈ segments text) :
    '/' ∉ segment := by
  induction text generalizing segment with
  | nil =>
      obtain rfl : segment = [] := by simpa [segments] using member
      exact List.not_mem_nil
  | cons c text ih =>
      obtain ⟨first, later, cut⟩ := exists_segments_eq_cons text
      rw [cut] at ih
      simp only [segments, cut] at member
      split at member
      · rcases List.mem_cons.mp member with rfl | listed
        · exact List.not_mem_nil
        · exact ih listed
      · rename_i other
        have plain : c ≠ '/' := by simpa using other
        rcases List.mem_cons.mp member with rfl | listed
        · simpa [plain.symm] using ih List.mem_cons_self
        · exact ih (List.mem_cons_of_mem _ listed)

theorem segments_spelling {first : List Char} {later : List (List Char)}
    (plain : ∀ segment ∈ first :: later, '/' ∉ segment) :
    segments (spelling first later) = first :: later := by
  rw [← intercalate_eq_spelling, segments_eq_splitOn,
    List.splitOn_intercalate '/' plain (List.cons_ne_nil first later)]

/-! ## Components -/

/-- The component that a path opens with, given its segments. -/
def opening (first : List Char) (later : List (List Char)) : List String :=
  if !first.isEmpty then [String.ofList first] else if later.isEmpty then [] else ["/"]

/-- The components among segments that stand behind a slash. -/
def names (segments : List (List Char)) : List String :=
  (segments.filter isComponent).map String.ofList

theorem components_ofList {text first : List Char} {later : List (List Char)}
    (cut : segments text = first :: later) :
    (⟨String.ofList text⟩ : Path).components = opening first later ++ names later := by
  rw [components, String.toList_ofList, cut]
  rfl

theorem components_of_segments {path : Path} {first : List Char} {later : List (List Char)}
    (cut : segments path.text.toList = first :: later) :
    path.components = opening first later ++ names later := by
  rw [← components_ofList cut, String.ofList_toList]

theorem names_append (before after : List (List Char)) :
    names (before ++ after) = names before ++ names after := by
  rw [names, List.filter_append, List.map_append]
  rfl

theorem names_eq_nil_iff {segments : List (List Char)} :
    names segments = [] ↔ ∀ segment ∈ segments, isComponent segment = false := by
  rw [names, List.map_eq_nil_iff, List.filter_eq_nil_iff]
  simp only [Bool.not_eq_true]

theorem opening_congr {first : List Char} {later later' : List (List Char)}
    (alike : later = [] ↔ later' = []) : opening first later = opening first later' := by
  have same : later.isEmpty = later'.isEmpty := by
    rw [Bool.eq_iff_iff, List.isEmpty_iff, List.isEmpty_iff, alike]
  rw [opening, opening, same]

theorem opening_of_ne_nil {first : List Char} (written : first ≠ []) (later : List (List Char)) :
    opening first later = [String.ofList first] := by
  simp [opening, written]

/-- A text that is not empty opens with the same component, whatever is written behind it. -/
theorem opening_append {text first : List Char} {later : List (List Char)}
    (cut : segments text = first :: later) (written : text ≠ []) (more : List (List Char)) :
    opening first (later ++ more) = opening first later := by
  by_cases blank : first = []
  · have deeper : later ≠ [] := by
      rintro rfl
      apply written
      rw [spelling_of_segments cut, blank]
      rfl
    apply opening_congr
    simp [deeper]
  · rw [opening_of_ne_nil blank, opening_of_ne_nil blank]

theorem components_empty : (⟨""⟩ : Path).components = [] := rfl

/-! ## The parent -/

theorem trimEnd_eq_rdropWhile (segments : List (List Char)) :
    trimEnd segments = segments.rdropWhile (!isComponent ·) := rfl

theorem names_trimEnd (segments : List (List Char)) : names (trimEnd segments) = names segments := by
  rw [trimEnd_eq_rdropWhile]
  induction segments using List.reverseRecOn with
  | nil => rfl
  | append_singleton front last ih =>
      rw [List.rdropWhile_concat]
      split
      · rename_i dropped
        have none : names [last] = [] := by
          rw [names_eq_nil_iff]
          simpa using dropped
        rw [ih, names_append, none, List.append_nil]
      · rfl

/-- What is left after trimming ends in a component. -/
theorem names_of_trimEnd_ne_nil {segments : List (List Char)} (left : trimEnd segments ≠ []) :
    ∃ last, names segments = names (trimEnd segments).dropLast ++ [String.ofList last] := by
  refine ⟨(trimEnd segments).getLast left, ?_⟩
  have component : isComponent ((trimEnd segments).getLast left) = true := by
    have kept := List.rdropWhile_last_not (!isComponent ·) segments left
    rw [Bool.not_eq_true', Bool.not_eq_false] at kept
    exact kept
  have split := List.dropLast_append_getLast left
  calc names segments = names (trimEnd segments) := (names_trimEnd segments).symm
    _ = names ((trimEnd segments).dropLast ++ [(trimEnd segments).getLast left]) := by rw [split]
    _ = _ := by rw [names_append]; simp [names, component]

theorem names_eq_nil_of_trimEnd {segments : List (List Char)} (left : trimEnd segments = []) :
    names segments = [] := by
  rw [← names_trimEnd, left]
  rfl

theorem mem_of_mem_trimEnd {segments : List (List Char)} {segment : List Char}
    (member : segment ∈ trimEnd segments) : segment ∈ segments :=
  (List.rdropWhile_prefix (!isComponent ·) segments).subset member

theorem slash_not_mem_kept {text first segment : List Char} {later : List (List Char)}
    (cut : segments text = first :: later)
    (member : segment ∈ first :: trimEnd (trimEnd later).dropLast) : '/' ∉ segment := by
  have listed : ∀ other ∈ first :: later, '/' ∉ other := by
    rw [← cut]
    exact fun other => slash_not_mem_of_mem_segments
  apply listed
  rcases List.mem_cons.mp member with rfl | kept
  · exact List.mem_cons_self
  · exact List.mem_cons_of_mem _
      (mem_of_mem_trimEnd (List.dropLast_subset _ (mem_of_mem_trimEnd kept)))

/-- The parent lacks the last component and nothing else. -/
theorem components_of_parent? {path parent : Path} (found : path.parent? = some parent) :
    ∃ last, path.components = parent.components ++ [last] := by
  obtain ⟨first, later, cut⟩ := exists_segments_eq_cons path.text.toList
  rw [components_of_segments cut]
  simp only [parent?, cut] at found
  split at found
  · rename_i trimmed
    split at found
    · cases found
    · rename_i written
      cases found
      rw [names_eq_nil_of_trimEnd (List.isEmpty_iff.mp trimmed), components_empty]
      exact ⟨String.ofList first, by simp [opening, written]⟩
  · rename_i left
    rw [List.isEmpty_iff] at left
    obtain ⟨last, split⟩ := names_of_trimEnd_ne_nil left
    refine ⟨String.ofList last, ?_⟩
    have behind : later ≠ [] := by
      rintro rfl
      exact left rfl
    rw [split, ← List.append_assoc, ← names_trimEnd (trimEnd later).dropLast]
    congr 1
    split at found
    · rename_i root
      cases found
      obtain ⟨rfl, bare⟩ : first = [] ∧ trimEnd (trimEnd later).dropLast = [] := by
        simpa using root
      rw [bare]
      simp [opening, behind, names]
      rfl
    · rename_i deeper
      cases found
      rw [intercalate_eq_spelling,
        components_ofList (segments_spelling fun segment => slash_not_mem_kept cut)]
      congr 1
      by_cases written : first = []
      · have kept : trimEnd (trimEnd later).dropLast ≠ [] := by
          intro bare
          simp [written, bare] at deeper
        simp [opening, written, behind, kept]
      · simp [opening, written]

/-- Only the root and the empty path have no parent. -/
theorem components_of_parent?_eq_none {path : Path} (none : path.parent? = none) :
    path.components = [] ∨ path.components = ["/"] := by
  obtain ⟨first, later, cut⟩ := exists_segments_eq_cons path.text.toList
  rw [components_of_segments cut]
  simp only [parent?, cut] at none
  split at none
  · rename_i trimmed
    split at none
    · rename_i bare
      rw [names_eq_nil_of_trimEnd (List.isEmpty_iff.mp trimmed), List.append_nil, opening]
      cases later <;> simp [bare]
    · cases none
  · split at none <;> cases none

/-! ## Joining -/

/-- The path means the same components wherever it is read from: it is relative and does not begin
with a dot. -/
def IsPlain (path : Path) : Prop :=
  path.isAbsolute = false ∧ path.components.head? ≠ some "."

instance (path : Path) : Decidable path.IsPlain :=
  inferInstanceAs (Decidable (_ ∧ _))

theorem isAbsolute_of_segments {path : Path} {second : List Char} {later : List (List Char)}
    (cut : segments path.text.toList = [] :: second :: later) : path.isAbsolute = true := by
  rw [isAbsolute, spelling_of_segments cut]
  rfl

/-- All segments of a plain path that count behind a slash count without one. -/
theorem names_segments_of_isPlain {path : Path} (plain : path.IsPlain) :
    names (segments path.text.toList) = path.components := by
  obtain ⟨relative, undotted⟩ := plain
  obtain ⟨first, later, cut⟩ := exists_segments_eq_cons path.text.toList
  rw [components_of_segments cut] at undotted ⊢
  rw [cut]
  by_cases written : first = []
  · subst written
    cases later with
    | nil => rfl
    | cons second later =>
        rw [isAbsolute_of_segments cut] at relative
        cases relative
  · rw [opening_of_ne_nil written] at undotted ⊢
    have named : first ≠ ['.'] := by
      rintro rfl
      exact undotted rfl
    have component : isComponent first = true := by simp [isComponent, written, named]
    simp [names, component]

theorem components_join {base path : Path} (plain : path.IsPlain) :
    (base.join path).components = base.components ++ path.components := by
  rw [join, plain.1, Bool.false_or, ← names_segments_of_isPlain plain]
  split
  · rename_i empty
    obtain ⟨text⟩ := base
    obtain rfl : text = "" := String.isEmpty_iff.mp empty
    rw [components_empty, names_segments_of_isPlain plain, List.nil_append]
  · rename_i written
    rw [String.isEmpty_iff] at written
    obtain ⟨second, rest, behind⟩ := exists_segments_eq_cons path.text.toList
    split
    · rename_i closed
      -- The slash at the end of the base cuts off an empty segment, which the path replaces.
      obtain ⟨front, ending⟩ : ∃ front, base.text.toList = front ++ ['/'] := by
        simpa [List.getLast?_eq_some_iff] using closed
      obtain ⟨first, later, cut⟩ := exists_segments_eq_cons front
      have bare : segments base.text.toList = first :: (later ++ [[]]) := by
        rw [ending, segments_append, cut]
        rfl
      have joined : segments (base.text ++ path.text).toList =
          first :: (later ++ segments path.text.toList) := by
        rw [String.toList_append, ending, List.append_assoc, List.singleton_append,
          segments_append, cut, List.cons_append]
      have alike : later ++ segments path.text.toList = [] ↔ later ++ [[]] = [] := by
        simp [behind]
      rw [@components_of_segments ⟨base.text ++ path.text⟩ _ _ joined,
        components_of_segments bare, opening_congr alike, names_append, names_append,
        List.append_assoc, List.append_assoc]
      rfl
    · obtain ⟨first, later, cut⟩ := exists_segments_eq_cons base.text.toList
      have joined : segments (base.text ++ "/" ++ path.text).toList =
          first :: (later ++ segments path.text.toList) := by
        rw [String.toList_append, String.toList_append, List.append_assoc]
        have cutBehind := segments_append base.text.toList path.text.toList
        rw [cut, List.cons_append] at cutBehind
        exact cutBehind
      have opens := opening_append cut (mt String.toList_eq_nil_iff.mp written)
        (segments path.text.toList)
      rw [@components_of_segments ⟨base.text ++ "/" ++ path.text⟩ _ _ joined,
        components_of_segments cut, opens, names_append, List.append_assoc]

/-! ## Respelling -/

/-- The second text is the first one without a slash or a dot that does not count. -/
inductive Trims : List Char → List Char → Prop where
  | slash (before after : List Char) : Trims (before ++ '/' :: '/' :: after) (before ++ '/' :: after)
  | dot (before after : List Char) :
      Trims (before ++ '/' :: '.' :: '/' :: after) (before ++ '/' :: after)
  | lastSlash {text : List Char} (written : text ≠ []) : Trims (text ++ ['/']) text
  | lastDot (text : List Char) : Trims (text ++ ['/', '.']) (text ++ ['/'])

/-- One path can be made of the other by writing and leaving out slashes and dots that do not
count. -/
def Respelled (path other : Path) : Prop :=
  Relation.EqvGen Trims path.text.toList other.text.toList

theorem names_cons_of_idle {segment : List Char} (idle : isComponent segment = false)
    (later : List (List Char)) : names (segment :: later) = names later := by
  rw [names, List.filter_cons_of_neg (by simp [idle]), names]

/-- A segment between slashes that is no component can be left out. -/
theorem components_append_idle (before after : List Char) {segment : List Char}
    (idle : isComponent segment = false) (plain : '/' ∉ segment) :
    (⟨String.ofList (before ++ '/' :: segment ++ '/' :: after)⟩ : Path).components =
      (⟨String.ofList (before ++ '/' :: after)⟩ : Path).components := by
  obtain ⟨first, later, cut⟩ := exists_segments_eq_cons before
  have alone : segments segment = [segment] := by
    rw [segments_eq_splitOn, List.splitOn_eq_singleton plain]
  have long : segments (before ++ '/' :: segment ++ '/' :: after) =
      first :: (later ++ segment :: segments after) := by
    rw [segments_append, segments_append, cut, alone, List.append_assoc]
    rfl
  have short : segments (before ++ '/' :: after) = first :: (later ++ segments after) := by
    rw [segments_append, cut, List.cons_append]
  have alike : later ++ segment :: segments after = [] ↔ later ++ segments after = [] := by
    simp [segments_ne_nil after]
  rw [components_ofList long, components_ofList short, opening_congr alike, names_append,
    names_append, names_cons_of_idle idle]

theorem Trims.components_eq {text other : List Char} (trims : Trims text other) :
    (⟨String.ofList text⟩ : Path).components = (⟨String.ofList other⟩ : Path).components := by
  cases trims with
  | slash before after =>
      have idle := components_append_idle before after (show isComponent [] = false from rfl)
        List.not_mem_nil
      simpa using idle
  | dot before after =>
      have idle := components_append_idle before after (show isComponent ['.'] = false from rfl)
        (by decide)
      simpa using idle
  | lastSlash written =>
      obtain ⟨first, later, cut⟩ := exists_segments_eq_cons other
      have closed : segments (other ++ ['/']) = first :: (later ++ [[]]) := by
        rw [segments_append, cut]
        rfl
      rw [components_ofList closed, components_ofList cut, opening_append cut written, names_append]
      simp [names, isComponent]
  | lastDot text =>
      obtain ⟨first, later, cut⟩ := exists_segments_eq_cons text
      have dotted : segments (text ++ ['/', '.']) = first :: (later ++ [['.']]) := by
        rw [segments_append, cut]
        rfl
      have closed : segments (text ++ ['/']) = first :: (later ++ [[]]) := by
        rw [segments_append, cut]
        rfl
      have alike : later ++ [['.']] = [] ↔ later ++ [([] : List Char)] = [] := by simp
      rw [components_ofList dotted, components_ofList closed, opening_congr alike, names_append,
        names_append]
      rfl

theorem Respelled.components_eq {path other : Path} (respelled : path.Respelled other) :
    path.components = other.components := by
  have step : ∀ {text text' : List Char}, Relation.EqvGen Trims text text' →
      (⟨String.ofList text⟩ : Path).components = (⟨String.ofList text'⟩ : Path).components := by
    intro text text' related
    induction related with
    | rel _ _ trims => exact trims.components_eq
    | refl _ => rfl
    | symm _ _ _ ih => exact ih.symm
    | trans _ _ _ _ _ first second => exact first.trans second
  have same := step respelled
  rwa [String.ofList_toList, String.ofList_toList] at same

/-- The text of components one behind the other, each after a slash. -/
def descent (names : List String) : List Char :=
  names.flatMap fun name => '/' :: name.toList

/-- The plainest text with these components. -/
def plainest : List String → List Char
  | [] => []
  | first :: later =>
    if first = "/" then if later = [] then ['/'] else descent later
    else first.toList ++ descent later

theorem eq_nil_or_eq_dot {segment : List Char} (idle : isComponent segment = false) :
    segment = [] ∨ segment = ['.'] := by
  by_contra other
  push Not at other
  simp [isComponent, other.1, other.2] at idle

/-- Between two slashes a segment that is no component can be left out. -/
theorem trims_idle (before : List Char) {segment : List Char} (idle : isComponent segment = false)
    (next : List Char) (later : List (List Char)) :
    Trims (spelling before (segment :: next :: later)) (spelling before (next :: later)) := by
  rcases eq_nil_or_eq_dot idle with rfl | rfl
  · exact Trims.slash before _
  · exact Trims.dot before _

/-- Behind a text that is not empty, all segments that are no components can be left out. -/
theorem eqvGen_spelling {before : List Char} (written : before ≠ []) (later : List (List Char)) :
    Relation.EqvGen Trims (spelling before later) (before ++ descent (names later)) := by
  induction later generalizing before with
  | nil => exact .refl _
  | cons segment later ih =>
      cases counts : isComponent segment with
      | true =>
          have further := @ih (before ++ '/' :: segment) (by simp)
          simpa [spelling, names, descent, counts] using further
      | false =>
          rw [names_cons_of_idle counts]
          refine .trans _ (spelling before later) _ ?_ (ih written)
          cases later with
          | cons next later => exact .rel _ _ (trims_idle before counts next later)
          | nil =>
              have closed : Relation.EqvGen Trims (before ++ ['/']) before :=
                .rel _ _ (.lastSlash written)
              rcases eq_nil_or_eq_dot counts with rfl | rfl
              · simpa [spelling] using closed
              · have dotted := Relation.EqvGen.rel _ _ (Trims.lastDot before)
                simpa [spelling] using dotted.trans _ _ _ closed

/-- An absolute path keeps its slash. -/
theorem eqvGen_spelling_absolute (second : List Char) (later : List (List Char)) :
    Relation.EqvGen Trims (spelling [] (second :: later))
      (plainest ("/" :: names (second :: later))) := by
  induction later generalizing second with
  | nil =>
      cases counts : isComponent second with
      | true => simpa [spelling, plainest, names, descent, counts] using Relation.EqvGen.refl _
      | false =>
          rcases eq_nil_or_eq_dot counts with rfl | rfl
          · exact .refl _
          · exact .rel _ _ (.lastDot [])
  | cons third later ih =>
      cases counts : isComponent second with
      | true =>
          have further := eqvGen_spelling (List.cons_ne_nil '/' second) (third :: later)
          simpa [spelling, plainest, names, descent, counts] using further
      | false =>
          rw [names_cons_of_idle counts]
          exact .trans _ _ _ (.rel _ _ (trims_idle [] counts third later)) (ih third)

theorem eqvGen_plainest (text : List Char) :
    Relation.EqvGen Trims text (plainest (⟨String.ofList text⟩ : Path).components) := by
  obtain ⟨first, later, cut⟩ := exists_segments_eq_cons text
  rw [components_ofList cut]
  by_cases blank : first = []
  · subst blank
    rw [spelling_of_segments cut]
    cases later with
    | nil => exact .refl _
    | cons second later => exact eqvGen_spelling_absolute second later
  · have plain : '/' ∉ first := by
      apply slash_not_mem_of_mem_segments
      rw [cut]
      exact List.mem_cons_self
    have named : String.ofList first ≠ "/" := by
      intro same
      have slash : first = ['/'] := by simpa using congrArg String.toList same
      exact plain (slash ▸ List.mem_singleton_self '/')
    have further := eqvGen_spelling blank later
    rw [opening_of_ne_nil blank]
    rw [← spelling_of_segments cut] at further
    simpa [plainest, named] using further

/-- **Two paths have the same components exactly if one is a respelling of the other.** -/
theorem components_eq_iff_respelled {path other : Path} :
    path.components = other.components ↔ path.Respelled other := by
  refine ⟨fun same => ?_, Respelled.components_eq⟩
  have first := eqvGen_plainest path.text.toList
  have second := eqvGen_plainest other.text.toList
  rw [String.ofList_toList] at first second
  rw [same] at first
  exact first.trans _ _ _ (second.symm _ _)

end VoiceGrammar.Path
