/-
# What compiling reports, and in which order

`Grammar.trace` lists the events of a compilation without compiling. It walks through the
spots of a phrase, which are its characters and its end, and says what is to be warned of at
each (`Spot.warnings`): a closer outside every group, a reference whose type is not that of
the first one with its name, an end inside a group. The warnings of an intent are those of
its spots up to the first that is not sound, which is a `$` with something wrong about it.

Compiling reports just that (`Grammar.compile_reports_exactly`). `Traces` says so of one
computation and one list of spots, and it passes from parts to wholes (`Traces.bind`). The
reading of one phrase is an induction along its references (`Scan.events_read`). `Scan.Reaches`
is what each of them keeps (`Scan.Reaches.step`): the depth known to the reader is that of
the text behind it, and the variables of the draft are those of the occurrences behind it.
-/
import VoiceGrammar.Proofs.Brackets
import VoiceGrammar.Proofs.FirstFault

namespace VoiceGrammar

set_option autoImplicit false

/-! ## Spots -/

/-- A character of a phrase of an intent, or its end. -/
structure Spot where
  intent : String
  phrase : String
  /-- The texts behind the earlier `$` signs of the phrase, first to last. -/
  earlier : List (List Char)
  before : List Char
  /-- The text from here on. -/
  after : List Char

/-- The spots in the rest of a phrase, left to right. -/
def Phrase.spots (intent phrase : String) : List (List Char) → List Char → List Char → List Spot
  | earlier, before, [] => [⟨intent, phrase, earlier, before, []⟩]
  | earlier, before, c :: after =>
    ⟨intent, phrase, earlier, before, c :: after⟩ ::
      spots intent phrase (if c = '$' then earlier ++ [after] else earlier) (before ++ [c]) after

namespace Place

variable (grammar : Grammar) (reserved : ReservedWords) (place : Place)

/-- Nothing is wrong with the place. -/
def Sound : Prop := ∀ fault, ¬ place.Faulty grammar reserved fault

theorem repeats_iff (name : String) :
    place.Repeats reserved name ↔
      ∃ found ∈ place.earlier.filterMap Phrase.reference?,
        found.2.1 = name ∨ reserved.escape found.2.1 = reserved.escape name := by
  constructor
  · rintro ⟨first, ⟨text, member, reference, ⟨behind, rfl, ends⟩, rfl⟩, same⟩
    exact ⟨_, List.mem_filterMap.mpr ⟨_, member, Phrase.reference?_body reference ends⟩, same⟩
  · rintro ⟨⟨tag, first, behind⟩, member, same⟩
    obtain ⟨text, listed, found⟩ := List.mem_filterMap.mp member
    obtain ⟨reference, written, spelling, ends⟩ := Phrase.reference?_eq_some found
    cases written
    exact ⟨reference.name, ⟨text, listed, reference, ⟨behind, spelling, ends⟩, rfl⟩, same⟩

instance (name : String) : Decidable (place.Repeats reserved name) :=
  decidable_of_iff _ (place.repeats_iff reserved name).symm

instance (tag : String) : Decidable (grammar.KnowsTag reserved tag) :=
  inferInstanceAs (Decidable (_ ∨ ∃ slot ∈ grammar.slots, _))

theorem sound_iff :
    place.Sound grammar reserved ↔
      ∃ found ∈ Phrase.reference? place.text,
        ¬ place.Repeats reserved found.2.1 ∧ grammar.KnowsTag reserved found.1 := by
  constructor
  · intro sound
    cases found : Phrase.reference? place.text with
    | none =>
        refine absurd (.malformed fun reference begins => ?_) (sound _)
        obtain ⟨behind, same, -⟩ := begins
        exact Phrase.reference?_eq_none_iff.mp found reference behind same
    | some parts =>
        obtain ⟨tag, name, behind⟩ := parts
        obtain ⟨reference, written, spelling, ends⟩ := Phrase.reference?_eq_some found
        cases written
        have begins : reference.Begins place.text := ⟨behind, spelling, ends⟩
        have fresh : ¬ place.Repeats reserved reference.name :=
          fun again => sound _ (.repeated begins again)
        refine ⟨_, rfl, fresh, ?_⟩
        by_contra untyped
        exact sound _ (.unknown begins fresh untyped)
  · rintro ⟨⟨tag, name, behind⟩, found, fresh, known⟩ fault faulty
    obtain ⟨reference, written, spelling, ends⟩ := Phrase.reference?_eq_some found
    cases written
    have begins : reference.Begins place.text := ⟨behind, spelling, ends⟩
    cases faulty with
    | malformed missing => exact missing reference begins
    | repeated written again => exact fresh (written.unique begins ▸ again)
    | unknown written _ untyped => exact untyped (written.unique begins ▸ known)

instance : Decidable (place.Sound grammar reserved) :=
  decidable_of_iff _ (place.sound_iff grammar reserved).symm

end Place

namespace Spot

/-- The place where a reference has to stand, if this is one. -/
def place? (spot : Spot) : Option Place :=
  match spot.after with
  | [] => none
  | c :: text => if c = '$' then some ⟨spot.intent, spot.phrase, spot.earlier, text⟩ else none

variable (grammar : Grammar) (reserved : ReservedWords)

/-- Reading goes on behind the spot. -/
def Sound (spot : Spot) : Prop :=
  ∀ place ∈ spot.place?, place.Sound grammar reserved

instance (spot : Spot) : Decidable (spot.Sound grammar reserved) :=
  inferInstanceAs (Decidable (∀ place ∈ spot.place?, place.Sound grammar reserved))

/-- The occurrence has another type than the first of the mentions with its name. -/
def conflicts (setting : Intent.Setting) (mentions : List Occurrence) (occurrence : Occurrence) :
    Bool :=
  (mentions.find? (setting.nameOf · == setting.nameOf occurrence)).any
    (setting.typeOf? · != setting.typeOf? occurrence)

/-- What there is to warn of at a spot of an intent with these mentions. -/
def warnings (mentions : List Occurrence) (spot : Spot) : List Event :=
  let depth := Phrase.depthAfter 0 spot.before
  let setting := grammar.settingOf reserved spot.intent
  match spot.after with
  | [] => if depth > 0 then [.unclosedGroup spot.phrase depth] else []
  | c :: text =>
    if c = '$' then
      match Phrase.reference? text with
      | none => []
      | some (tag, name, _) =>
        let occurrence : Occurrence := ⟨tag, name, depth > 0⟩
        if conflicts setting mentions occurrence then
          [.conflictingType spot.intent (setting.nameOf occurrence) spot.phrase]
        else []
    else if Phrase.isCloser c && depth == 0 then [.unmatchedCloser spot.phrase c]
    else []

/-- The warnings up to the first spot that is not sound. -/
def passed (mentions : List Occurrence) (spots : List Spot) : List Event :=
  (spots.takeWhile fun spot => decide (spot.Sound grammar reserved)).flatMap
    (warnings grammar reserved mentions)

variable {grammar reserved} {mentions : List Occurrence}

theorem sound_of_place?_eq_none {spot : Spot} (none : spot.place? = none) :
    spot.Sound grammar reserved := by
  intro place found
  rw [none] at found
  cases found

theorem sound_iff_of_place?_eq_some {spot : Spot} {place : Place} (found : spot.place? = some place) :
    spot.Sound grammar reserved ↔ place.Sound grammar reserved := by
  simp [Sound, found]

theorem passed_cons_of_sound {spot : Spot} (sound : spot.Sound grammar reserved)
    (spots : List Spot) :
    passed grammar reserved mentions (spot :: spots) =
      spot.warnings grammar reserved mentions ++ passed grammar reserved mentions spots := by
  rw [passed, List.takeWhile_cons_of_pos (by simpa using sound), List.flatMap_cons]
  rfl

theorem passed_cons_of_not_sound {spot : Spot} (faulty : ¬ spot.Sound grammar reserved)
    (spots : List Spot) : passed grammar reserved mentions (spot :: spots) = [] := by
  rw [passed, List.takeWhile_cons_of_neg (by simpa using faulty), List.flatMap_nil]

theorem passed_append_of_sound {spots : List Spot}
    (sound : ∀ spot ∈ spots, spot.Sound grammar reserved) (more : List Spot) :
    passed grammar reserved mentions (spots ++ more) =
      passed grammar reserved mentions spots ++ passed grammar reserved mentions more := by
  induction spots with
  | nil => rfl
  | cons spot spots ih =>
      have here := sound spot List.mem_cons_self
      rw [List.cons_append, passed_cons_of_sound here, passed_cons_of_sound here,
        ih fun other member => sound other (List.mem_cons_of_mem _ member), List.append_assoc]

theorem passed_append_of_not_sound {spots : List Spot}
    (faulty : ¬ ∀ spot ∈ spots, spot.Sound grammar reserved) (more : List Spot) :
    passed grammar reserved mentions (spots ++ more) = passed grammar reserved mentions spots := by
  induction spots with
  | nil => exact absurd (fun _ none => (List.not_mem_nil none).elim) faulty
  | cons spot spots ih =>
      rw [List.cons_append]
      by_cases here : spot.Sound grammar reserved
      · rw [List.forall_mem_cons, not_and] at faulty
        rw [passed_cons_of_sound here, passed_cons_of_sound here, ih (faulty here)]
      · rw [passed_cons_of_not_sound here, passed_cons_of_not_sound here]

variable (intent phrase : String)

/-- At the end of a phrase. -/
theorem passed_end (earlier : List (List Char)) (before : List Char) :
    passed grammar reserved mentions (Phrase.spots intent phrase earlier before []) =
      if Phrase.depthAfter 0 before > 0 then
        [.unclosedGroup phrase (Phrase.depthAfter 0 before)]
      else [] := by
  rw [Phrase.spots, passed_cons_of_sound (sound_of_place?_eq_none rfl)]
  exact List.append_nil _

/-- Through text without a `$`. -/
theorem passed_plain {opening : List Char} (plain : '$' ∉ opening) (earlier : List (List Char))
    (before text : List Char) :
    passed grammar reserved mentions (Phrase.spots intent phrase earlier before (opening ++ text)) =
      (Phrase.straysIn (Phrase.depthAfter 0 before) opening).map (.unmatchedCloser phrase) ++
        passed grammar reserved mentions
          (Phrase.spots intent phrase earlier (before ++ opening) text) := by
  induction opening generalizing before with
  | nil => simp [Phrase.straysIn]
  | cons c opening ih =>
      rw [List.mem_cons, not_or] at plain
      have other : c ≠ '$' := Ne.symm plain.1
      have sound : Spot.Sound grammar reserved
          ⟨intent, phrase, earlier, before, c :: (opening ++ text)⟩ :=
        sound_of_place?_eq_none (if_neg other)
      have deeper : Phrase.depthAfter 0 (before ++ [c]) =
          Phrase.deepen (Phrase.depthAfter 0 before) c := by
        exact Phrase.depthAfter_append 0 before [c]
      rw [List.cons_append, Phrase.spots, if_neg other, passed_cons_of_sound sound, ih plain.2, deeper,
        Phrase.straysIn, List.map_append, List.append_assoc, List.append_assoc, List.singleton_append]
      congr 1
      simp only [warnings, if_neg other]
      split <;> rfl

theorem sound_dollar {earlier : List (List Char)} {before text : List Char} :
    Sound grammar reserved ⟨intent, phrase, earlier, before, '$' :: text⟩ ↔
      Place.Sound grammar reserved ⟨intent, phrase, earlier, text⟩ :=
  sound_iff_of_place?_eq_some rfl

/-- Through a reference. -/
theorem passed_reference (reference : Phrase.Reference) {behind : List Char}
    (ends : Phrase.NameEnds behind) {earlier : List (List Char)}
    (sound : Place.Sound grammar reserved ⟨intent, phrase, earlier, reference.body ++ behind⟩)
    (before : List Char) :
    let setting := grammar.settingOf reserved intent
    let occurrence : Occurrence :=
      ⟨reference.tag, reference.name, Phrase.depthAfter 0 before > 0⟩
    passed grammar reserved mentions
        (Phrase.spots intent phrase earlier before ('$' :: (reference.body ++ behind))) =
      (if conflicts setting mentions occurrence then
          [.conflictingType intent (setting.nameOf occurrence) phrase] else []) ++
        passed grammar reserved mentions (Phrase.spots intent phrase
          (earlier ++ [reference.body ++ behind]) (before ++ ['$'] ++ reference.body) behind) := by
  intro setting occurrence
  have noStray : Phrase.straysIn (Phrase.depthAfter 0 (before ++ ['$'])) reference.body = [] :=
    (Phrase.depthAfter_flat reference.body_flat _).2
  rw [Phrase.spots, if_pos rfl, passed_cons_of_sound ((sound_dollar intent phrase).mpr sound),
    passed_plain intent phrase reference.dollar_not_mem_body, noStray]
  simp only [warnings, if_pos, Phrase.reference?_body reference ends]
  rfl

/-- The places of a phrase are those of its spots. -/
theorem filterMap_place?_spots (earlier : List (List Char)) (before text : List Char) :
    (Phrase.spots intent phrase earlier before text).filterMap place? =
      Phrase.places intent phrase earlier text := by
  induction text generalizing earlier before with
  | nil => rfl
  | cons c text ih =>
      rw [Phrase.spots, Phrase.places, List.filterMap_cons, ih]
      by_cases dollar : c = '$' <;> simp [place?, dollar]

theorem sound_spots_iff {earlier : List (List Char)} {before text : List Char} :
    (∀ spot ∈ Phrase.spots intent phrase earlier before text, spot.Sound grammar reserved) ↔
      ∀ place ∈ Phrase.places intent phrase earlier text, place.Sound grammar reserved := by
  rw [← filterMap_place?_spots intent phrase earlier before text]
  constructor
  · intro sound place member
    obtain ⟨spot, listed, found⟩ := List.mem_filterMap.mp member
    exact sound spot listed place found
  · intro sound spot listed place found
    exact sound place (List.mem_filterMap.mpr ⟨spot, listed, found⟩)

end Spot

/-! ## Computations that report what there is to warn of -/

section Traces

variable {ε α β : Type}

/-- The computation reports the warnings of the spots up to the first that is not sound, and it
succeeds if all of them are. -/
structure Traces (grammar : Grammar) (reserved : ReservedWords) (mentions : List Occurrence)
    (spots : List Spot) (logged : Logged ε α) : Prop where
  events : logged.events = Spot.passed grammar reserved mentions spots
  succeeds : (∃ value, logged.outcome = .ok value) ↔ ∀ spot ∈ spots, spot.Sound grammar reserved

variable {grammar : Grammar} {reserved : ReservedWords} {mentions : List Occurrence}
  {spots more : List Spot}

theorem Traces.pure (value : α) :
    Traces grammar reserved mentions [] (pure value : Logged ε α) :=
  ⟨rfl, fun _ _ none => (List.not_mem_nil none).elim, fun _ => ⟨value, rfl⟩⟩

theorem Traces.bind {first : Logged ε α} {next : α → Logged ε β}
    (here : Traces grammar reserved mentions spots first)
    (there : ∀ value, first.outcome = .ok value →
      Traces grammar reserved mentions more (next value)) :
    Traces grammar reserved mentions (spots ++ more) (first >>= next) := by
  rcases first with ⟨events, error | value⟩
  · have faulty : ¬ ∀ spot ∈ spots, spot.Sound grammar reserved := by
      intro sound
      obtain ⟨value, wrong⟩ := here.succeeds.mpr sound
      cases wrong
    refine ⟨here.events.trans (Spot.passed_append_of_not_sound faulty more).symm, ?_, ?_⟩
    · rintro ⟨value, wrong⟩
      cases wrong
    · intro sound
      exact absurd (fun spot member => sound spot (List.mem_append_left _ member)) faulty
  · have sound := here.succeeds.mp ⟨value, rfl⟩
    have rest := there value rfl
    refine ⟨?_, rest.succeeds.trans ?_⟩
    · rw [Spot.passed_append_of_sound sound, ← here.events, ← rest.events]
      rfl
    · rw [List.forall_mem_append]
      exact ⟨fun later => ⟨sound, later⟩, And.right⟩

end Traces

/-! ## Reading one phrase -/

namespace Intent

variable {setting : Setting} {phrase : String} {draft : Draft} {occurrence : Occurrence}

/-- The variable of a name has the type of the first occurrence of that name. -/
theorem Declares.find?_of_find? {vars : List Variable} {read : List Occurrence} {name : String}
    {first : Variable} (declares : Declares setting vars read)
    (found : vars.find? (·.name == name) = some first) :
    ∃ o, read.find? (setting.nameOf · == name) = some o ∧ setting.typeOf? o = some first.type := by
  have named : first.name = name := by simpa using List.find?_some found
  have listed : (first.name, some first.type) ∈ vars.map fun v => (v.name, some v.type) :=
    List.mem_map_of_mem (f := fun v : Variable => (v.name, some v.type))
      (List.mem_of_find?_eq_some found)
  rw [declares] at listed
  obtain ⟨o, kept, same⟩ := List.mem_map.mp listed
  obtain ⟨nameOf, typeOf⟩ := Prod.mk.inj same
  refine ⟨o, ?_, typeOf⟩
  rw [← named, ← nameOf]
  exact find?_of_mem_firsts _ kept

theorem Declares.find?_eq_none {vars : List Variable} {read : List Occurrence} {name : String}
    (declares : Declares setting vars read) (absent : vars.find? (·.name == name) = none) :
    read.find? (setting.nameOf · == name) = none := by
  have unread : name ∉ read.map setting.nameOf := by
    rw [← declares.mem_names]
    simpa using absent
  simpa using unread

/-- Adding an occurrence warns if it has another type than the first one of its name. -/
theorem Draft.add_events {next : Draft} {read mentions : List Occurrence}
    (declares : Declares setting draft.vars read) (listed : read ++ [occurrence] <+: mentions)
    (added : (draft.add setting phrase occurrence).outcome = .ok next) :
    (draft.add setting phrase occurrence).events =
      if Spot.conflicts setting mentions occurrence then
        [.conflictingType setting.intent (setting.nameOf occurrence) phrase]
      else [] := by
  obtain ⟨fresh, type, typed, -⟩ := Draft.add_eq_ok.mp added
  obtain ⟨more, rfl⟩ := listed
  unfold Draft.add
  rw [Spot.conflicts, List.find?_append, List.find?_append, typed]
  unfold Setting.nameOf at fresh ⊢
  unfold Setting.typeOf? at typed ⊢
  simp only [List.contains_eq_mem, fresh, decide_false, Bool.false_eq_true, if_false, typed]
  cases found : draft.vars.find? (·.name == setting.reserved.escape occurrence.name) with
  | none =>
      have unread := declares.find?_eq_none found
      unfold Setting.nameOf at unread
      simp [unread, Logged.ok, typed]
  | some first =>
      obtain ⟨o, before, typeOf⟩ := declares.find?_of_find? found
      unfold Setting.nameOf at before
      unfold Setting.typeOf? at typeOf
      by_cases same : first.type = type <;> simp [before, typeOf, same]

theorem Draft.add_events_of_error {error : PhraseError}
    (failed : (draft.add setting phrase occurrence).outcome = .error error) :
    (draft.add setting phrase occurrence).events = [] := by
  unfold Draft.add at failed ⊢
  dsimp only at failed ⊢
  split at failed
  · rename_i known
    rw [if_pos known]
    rfl
  · rename_i fresh
    rw [if_neg fresh]
    split at failed
    · rfl
    · split at failed <;> cases failed

/-- What the reader reports is passed on as it is. -/
theorem events_foldlM_read (events : List Event) (signals : List Scan.Signal) :
    ((events.map Scan.Signal.event ++ signals).foldlM (Draft.read setting phrase) draft).events =
      events ++ (signals.foldlM (Draft.read setting phrase) draft).events := by
  induction events with
  | nil => rfl
  | cons event events ih =>
      rw [List.map_cons, List.cons_append, List.cons_append, ← ih]
      rfl

end Intent

namespace Scan

open Phrase Intent

variable {grammar : Grammar} {reserved : ReservedWords} {intent : String} {scan : Scan}
  {earlier : List (List Char)} {before : List Char} {draft : Draft}
  {read mentions : List Occurrence}

/-- The scan has come so far in a phrase: behind it are these places, this text and these
occurrences, and from them the draft was made. -/
structure Reaches (grammar : Grammar) (reserved : ReservedWords) (intent : String)
    (mentions : List Occurrence) (scan : Scan) (earlier : List (List Char)) (before : List Char)
    (draft : Draft) (read : List Occurrence) : Prop where
  reading : scan.done = false
  seen : ∀ name, name ∈ scan.seen ↔ Names earlier name
  names : draft.names = scan.seen.map reserved.escape
  depth : scan.depth = depthAfter 0 before
  declares : Declares (grammar.settingOf reserved intent) draft.vars read
  listed : read ++ scan.items.filterMap Except.toOption <+: mentions

/-- The next step of the scan goes through plain text and reads this reference behind it. -/
structure Meets (scan : Scan) (opening : List Char) (reference : Reference) (behind : List Char)
    (level : Nat) : Prop where
  plain : '$' ∉ opening
  rest : scan.rest = opening ++ '$' :: (reference.body ++ behind)
  ends : NameEnds behind
  fresh : reference.name ∉ scan.seen
  item : scan.next.item = some (.ok ⟨reference.tag, reference.name, level > 0⟩)
  after : scan.next.scan =
    { scan with rest := behind, depth := level, seen := scan.seen ++ [reference.name] }

namespace Reaches

variable {opening behind : List Char} {reference : Reference} {level : Nat}

/-- The depth at a reference is that of the text before it. -/
theorem depth_of_meets
    (reaches : Reaches grammar reserved intent mentions scan earlier before draft read)
    (meets : scan.Meets opening reference behind level) :
    level = depthAfter 0 (before ++ opening) := by
  obtain ⟨-, deeper⟩ := next_of_dollar reaches.reading meets.plain meets.rest
  rw [depthAfter_append, ← reaches.depth, ← deeper, meets.after]

/-- The draft accepts a reference if its place is sound. -/
theorem accepts_iff
    (reaches : Reaches grammar reserved intent mentions scan earlier before draft read)
    (meets : scan.Meets opening reference behind level) :
    (∃ next, (draft.add (grammar.settingOf reserved intent) scan.phrase
        ⟨reference.tag, reference.name, level > 0⟩).outcome = .ok next) ↔
      Place.Sound grammar reserved ⟨intent, scan.phrase, earlier, reference.body ++ behind⟩ := by
  rw [(add_reports meets.ends meets.fresh reaches.seen reaches.names).ok_iff,
    List.forall_mem_singleton, Place.Sound]

/-- A reference that the draft accepts is behind the scan after the next step. -/
theorem step {next : Draft}
    (reaches : Reaches grammar reserved intent mentions scan earlier before draft read)
    (meets : scan.Meets opening reference behind level)
    (added : (draft.add (grammar.settingOf reserved intent) scan.phrase
      ⟨reference.tag, reference.name, level > 0⟩).outcome = .ok next) :
    Reaches grammar reserved intent mentions scan.next.scan
      (earlier ++ [reference.body ++ behind]) (before ++ opening ++ ['$'] ++ reference.body) next
      (read ++ [⟨reference.tag, reference.name, level > 0⟩]) := by
  obtain ⟨-, type, typed, grown⟩ := Draft.add_eq_ok.mp added
  refine ⟨?_, ?_, ?_, ?_, ?_, ?_⟩
  · rw [meets.after]
    exact reaches.reading
  · rw [meets.after]
    exact mem_seen_concat meets.ends reaches.seen
  · rw [grown, meets.after, reaches.names, List.map_append]
    rfl
  · rw [meets.after, reaches.depth_of_meets meets, depthAfter_append 0 (before ++ opening ++ ['$']),
      (depthAfter_flat reference.body_flat _).1, depthAfter_append 0 _ ['$']]
    rfl
  · rw [grown]
    exact reaches.declares.concat typed
  · have listed := reaches.listed
    rw [items_of_ok meets.item] at listed
    rw [← List.append_cons]
    exact listed

/-- If reading on behind a reference reports what it should, so does reading the reference. -/
theorem events_of_meets
    (reaches : Reaches grammar reserved intent mentions scan earlier before draft read)
    (meets : scan.Meets opening reference behind level)
    (onward : ∀ next, Reaches grammar reserved intent mentions scan.next.scan
        (earlier ++ [reference.body ++ behind]) (before ++ opening ++ ['$'] ++ reference.body) next
        (read ++ [⟨reference.tag, reference.name, level > 0⟩]) →
      (scan.next.scan.drain.1.foldlM
          (Draft.read (grammar.settingOf reserved intent) scan.next.scan.phrase) next).events =
        Spot.passed grammar reserved mentions (spots intent scan.next.scan.phrase
          (earlier ++ [reference.body ++ behind]) (before ++ opening ++ ['$'] ++ reference.body)
          scan.next.scan.rest)) :
    (scan.drain.1.foldlM (Draft.read (grammar.settingOf reserved intent) scan.phrase) draft).events =
      Spot.passed grammar reserved mentions (spots intent scan.phrase earlier before scan.rest) := by
  have accepts := reaches.accepts_iff meets
  rw [drain_of_ok meets.item, events_foldlM_read, meets.rest, Spot.passed_plain _ _ meets.plain,
    (next_of_dollar reaches.reading meets.plain meets.rest).1, reaches.depth, List.foldlM_cons]
  congr 1
  show (Logged.bind (draft.add (grammar.settingOf reserved intent) scan.phrase _) _).events = _
  cases added : (draft.add (grammar.settingOf reserved intent) scan.phrase
      ⟨reference.tag, reference.name, level > 0⟩).outcome with
  | error error =>
      have notSound : ¬ Spot.Sound grammar reserved ⟨intent, scan.phrase, earlier,
          before ++ opening, '$' :: (reference.body ++ behind)⟩ := by
        rw [Spot.sound_dollar, ← accepts, added]
        rintro ⟨next, wrong⟩
        cases wrong
      rw [spots, Spot.passed_cons_of_not_sound notSound, Logged.bind, added]
      exact Draft.add_events_of_error added
  | ok next =>
      have further := reaches.step meets added
      have warned := Draft.add_events reaches.declares
        ((List.prefix_append _ _).trans further.listed) added
      have behindIt := onward next further
      rw [meets.after] at behindIt
      rw [Spot.passed_reference _ _ reference meets.ends (accepts.mp ⟨next, added⟩),
        ← reaches.depth_of_meets meets, ← behindIt, Logged.bind, added, meets.after]
      exact congrArg (· ++ _) warned

end Reaches

/-- Reading on reports the warnings of the rest of the phrase, up to the first fault. -/
theorem events_read
    (reaches : Reaches grammar reserved intent mentions scan earlier before draft read) :
    (scan.drain.1.foldlM (Draft.read (grammar.settingOf reserved intent) scan.phrase) draft).events =
      Spot.passed grammar reserved mentions (spots intent scan.phrase earlier before scan.rest) := by
  induction size : scan.rest.length using Nat.strongRecOn
    generalizing scan earlier before draft read with
  | ind size ih =>
      cases advances reaches.reading with
      | finished plain nothing done =>
          have through : Spot.passed grammar reserved mentions
              (spots intent scan.phrase earlier before (scan.rest ++ [])) = _ :=
            Spot.passed_plain intent scan.phrase plain earlier before []
          rw [List.append_nil, Spot.passed_end, depthAfter_append, ← reaches.depth] at through
          rw [drain_of_none nothing, ← List.append_nil (scan.next.events.map Signal.event),
            events_foldlM_read, through, events_of_plain reaches.reading plain]
          exact List.append_nil _
      | @stopped opening text fault plain rest ends item done =>
          have notSound : ¬ Spot.Sound grammar reserved
              ⟨intent, scan.phrase, earlier, before ++ opening, '$' :: text⟩ := by
            rw [Spot.sound_dollar]
            exact fun sound => sound fault (faulty_of_ends reaches.seen ends)
          rw [drain_of_error item, events_foldlM_read, rest, Spot.passed_plain _ _ plain, spots,
            Spot.passed_cons_of_not_sound notSound, (next_of_dollar reaches.reading plain rest).1,
            reaches.depth]
          rfl
      | @read opening behind level reference plain rest ends fresh item after =>
          have shorter := next_rest_length scan item
          exact reaches.events_of_meets ⟨plain, rest, ends, fresh, item, after⟩
            fun next further => ih _ (by omega) further rfl

end Scan

/-! ## Whole intents -/

namespace Intent

/-- The required names are names of variables, without repetition. -/
structure Progress.Counts (progress : Progress) : Prop where
  distinct : (progress.required.getD []).Nodup
  within : ∀ name ∈ progress.required.getD [], name ∈ progress.vars.map (·.name)

theorem Progress.read_counts {setting : Setting} {phrases : List String} {phrase : String}
    {progress next : Progress} (reflects : progress.Reflects setting phrases)
    (counts : progress.Counts) (read : (progress.read setting phrase).outcome = .ok next) :
    next.Counts := by
  obtain ⟨draft, readPhrase, same⟩ := Logged.bind_eq_ok.mp read
  cases same
  have here := readPhrase_reflects reflects.declares readPhrase
  have sublist : draft.required.Sublist draft.names := by
    rw [here.required, here.names]
    exact List.filter_sublist.map _
  have within : ∀ name ∈ draft.required, name ∈ draft.vars.map (·.name) := by
    intro name member
    have named := sublist.mem member
    rw [here.names] at named
    rw [here.declares.mem_names, List.map_append]
    exact List.mem_append_right _ named
  cases before : progress.required with
  | none => exact ⟨here.distinct.sublist sublist, within⟩
  | some names =>
      have distinct := counts.distinct
      rw [before] at distinct
      refine ⟨distinct.filter _, fun name member => ?_⟩
      obtain ⟨-, required⟩ := List.mem_filter.mp member
      exact within name (by simpa using required)

/-- There are as many required names as variables with them. -/
theorem Progress.Counts.length_required {setting : Setting} {phrases : List String}
    {progress : Progress} (counts : progress.Counts)
    (reflects : progress.Reflects setting phrases) :
    (progress.required.getD []).length =
      progress.vars.countP fun v => (progress.required.getD []).contains v.name := by
  have names : (progress.vars.map (·.name)).Nodup := by
    rw [reflects.declares.names]
    exact nodup_map_firsts _ _
  have same : (progress.required.getD []).Perm
      ((progress.vars.map (·.name)).filter (progress.required.getD []).contains) := by
    rw [List.perm_ext_iff_of_nodup counts.distinct (names.filter _)]
    intro name
    rw [List.mem_filter, List.contains_eq_mem, decide_eq_true_iff]
    exact ⟨fun member => ⟨counts.within name member, member⟩, And.right⟩
  rw [same.length_eq, ← List.countP_eq_length_filter, List.countP_map]
  rfl

/-- Behind all phrases. -/
theorem Progress.counts_of_read {setting : Setting} {phrases : List String} {progress : Progress}
    (read : (phrases.foldlM (Progress.read setting) ⟨[], none⟩).outcome = .ok progress) :
    progress.Reflects setting phrases ∧ progress.Counts := by
  refine Logged.foldlM_invariant (fun before progress =>
    progress.Reflects setting before ∧ progress.Counts) ?_ ?_ read
  · rintro before phrase state next ⟨reflects, counts⟩ step
    exact ⟨Progress.read_reflects reflects step, Progress.read_counts reflects counts step⟩
  · exact ⟨⟨by simp [Declares, firsts], rfl⟩, List.nodup_nil, nofun⟩

end Intent

namespace Grammar

variable (grammar : Grammar) (reserved : ReservedWords)

/-- The spots of an intent, phrase by phrase. -/
def spotsOf (declared : String × List String) : List Spot :=
  declared.2.flatMap fun phrase => Phrase.spots declared.1 phrase [] [] phrase.toList

/-- Build one of the declared intents. -/
def buildDeclared (declared : String × List String) : Logged PhraseError Intent :=
  Intent.build declared.1 declared.2 (grammar.slots.map (compileSlot reserved)) reserved

/-- The event of a built intent: the numbers of its phrases, of its variables and of those that
are required. -/
def builtEvents (declared : String × List String) : Except PhraseError Intent → List Event
  | .ok intent =>
    [.builtIntent declared.1 declared.2.length intent.vars.length
      (intent.vars.countP (·.required))]
  | .error _ => []

/-- The events of one intent. -/
def traceOf (declared : String × List String) : List Event :=
  Spot.passed grammar reserved (declared.2.flatMap Phrase.occurrences) (spotsOf declared) ++
    builtEvents declared (grammar.buildDeclared reserved declared).outcome

/-- Whether an intent can be built. -/
def builds (declared : String × List String) : Bool :=
  (grammar.buildDeclared reserved declared).outcome.isOk

/-- The events of a compilation: those of the intents up to and including the first that cannot be
built, and then, if there is none, that of the model. -/
def trace : List Event :=
  let built := grammar.expressions.takeWhile (grammar.builds reserved)
  let failed := (grammar.expressions.dropWhile (grammar.builds reserved)).take 1
  (built ++ failed).flatMap (grammar.traceOf reserved) ++
    if grammar.expressions.all (grammar.builds reserved) then
      [.compiledGrammar grammar.expressions.length grammar.slots.length]
    else []

theorem readPhrase_traces {intent phrase : String} {vars : List Variable}
    {read mentions : List Occurrence}
    (declares : Intent.Declares (grammar.settingOf reserved intent) vars read)
    (listed : read ++ Phrase.occurrences phrase <+: mentions) :
    Traces grammar reserved mentions (Phrase.spots intent phrase [] [] phrase.toList)
      (Intent.readPhrase (grammar.settingOf reserved intent) vars phrase) := by
  rw [Phrase.occurrences_eq_items] at listed
  refine ⟨?_, ?_⟩
  · refine @Scan.events_read grammar reserved intent (Scan.start phrase) [] [] ⟨vars, [], []⟩
      read mentions ⟨rfl, ?_, rfl, rfl, declares, listed⟩
    intro name
    constructor
    · intro member
      cases member
    · rintro ⟨text, member, -⟩
      cases member
  · rw [Spot.sound_spots_iff]
    exact (grammar.readPhrase_reports reserved intent vars phrase).ok_iff

/-- Reading the phrases of an intent reports the warnings of its spots. -/
theorem phrases_trace (declared : String × List String) :
    Traces grammar reserved (declared.2.flatMap Phrase.occurrences) (spotsOf declared)
      (declared.2.foldlM (Intent.Progress.read (grammar.settingOf reserved declared.1))
        ⟨[], none⟩) := by
  suffices rest : ∀ (later before : List String) (progress : Intent.Progress),
      before ++ later = declared.2 →
      progress.Reflects (grammar.settingOf reserved declared.1) before →
      Traces grammar reserved (declared.2.flatMap Phrase.occurrences)
        (later.flatMap fun phrase => Phrase.spots declared.1 phrase [] [] phrase.toList)
        (later.foldlM (Intent.Progress.read (grammar.settingOf reserved declared.1)) progress) from
    rest declared.2 [] _ rfl ⟨by simp [Intent.Declares, firsts], rfl⟩
  intro later
  induction later with
  | nil => exact fun _ progress _ _ => .pure progress
  | cons phrase later ih =>
      intro before progress split reflects
      have listed : before.flatMap Phrase.occurrences ++ Phrase.occurrences phrase <+:
          declared.2.flatMap Phrase.occurrences := by
        rw [← split, List.flatMap_append, List.flatMap_cons, ← List.append_assoc]
        exact List.prefix_append _ _
      have here : Traces grammar reserved (declared.2.flatMap Phrase.occurrences)
          (Phrase.spots declared.1 phrase [] [] phrase.toList)
          (progress.read (grammar.settingOf reserved declared.1) phrase) := by
        rw [← List.append_nil (Phrase.spots _ _ _ _ _)]
        exact (grammar.readPhrase_traces reserved reflects.declares listed).bind
          fun draft _ => .pure _
      rw [List.flatMap_cons, List.foldlM_cons]
      refine here.bind fun next read => ih (before ++ [phrase]) next ?_ ?_
      · rw [List.append_assoc]
        exact split
      · exact Intent.Progress.read_reflects reflects read

/-- Building is reading the phrases, and then one event. -/
theorem buildDeclared_eq (declared : String × List String) :
    grammar.buildDeclared reserved declared =
      declared.2.foldlM (Intent.Progress.read (grammar.settingOf reserved declared.1))
          ⟨[], none⟩ >>= fun progress =>
        let required := progress.required.getD []
        let vars := progress.vars.map fun v => { v with required := required.contains v.name }
        ⟨[.builtIntent declared.1 declared.2.length vars.length required.length],
          .ok ⟨declared.1, vars⟩⟩ :=
  rfl

theorem events_buildDeclared (declared : String × List String) :
    (grammar.buildDeclared reserved declared).events = grammar.traceOf reserved declared := by
  have traces := grammar.phrases_trace reserved declared
  rw [traceOf, buildDeclared_eq, ← traces.events]
  rcases read : declared.2.foldlM (Intent.Progress.read (grammar.settingOf reserved declared.1))
      ⟨[], none⟩ with ⟨events, error | progress⟩
  · exact (List.append_nil events).symm
  · obtain ⟨reflects, counts⟩ := Intent.Progress.counts_of_read (congrArg Logged.outcome read)
    show events ++ [_] = events ++ [_]
    rw [counts.length_required reflects, List.countP_map]
    rfl

theorem builds_iff (declared : String × List String) :
    grammar.builds reserved declared = true ↔
      ∀ spot ∈ spotsOf declared, spot.Sound grammar reserved := by
  rw [← (grammar.phrases_trace reserved declared).succeeds, builds, buildDeclared_eq,
    Logged.outcome_bind]
  cases (declared.2.foldlM (Intent.Progress.read (grammar.settingOf reserved declared.1))
      ⟨[], none⟩).outcome with
  | error error => exact ⟨nofun, fun ⟨_, wrong⟩ => nomatch wrong⟩
  | ok progress => exact ⟨fun _ => ⟨progress, rfl⟩, fun _ => rfl⟩

end Grammar

/-! ## Whole grammars -/

section Lists

variable {ε α β : Type} (f : α → Logged ε β)

theorem Logged.events_bind_pure (logged : Logged ε α) (g : α → β) :
    (logged >>= fun value => pure (g value)).events = logged.events := by
  rcases logged with ⟨events, error | value⟩
  · rfl
  · exact List.append_nil events

theorem Logged.isOk_mapM (items : List α) :
    (items.mapM f).outcome.isOk = items.all fun item => (f item).outcome.isOk := by
  induction items with
  | nil => rfl
  | cons item items ih =>
      rw [List.mapM_cons, List.all_cons, ← ih, Logged.outcome_bind]
      cases (f item).outcome with
      | error error => rfl
      | ok value =>
          rw [except_ok_bind, Logged.outcome_bind]
          cases (items.mapM f).outcome <;> rfl

/-- A list that is worked through reports what its members report, up to and including the first
that fails. -/
theorem Logged.events_mapM (items : List α) :
    (items.mapM f).events =
      (items.takeWhile (fun item => (f item).outcome.isOk) ++
        (items.dropWhile fun item => (f item).outcome.isOk).take 1).flatMap
          fun item => (f item).events := by
  induction items with
  | nil => rfl
  | cons item items ih =>
      rw [List.mapM_cons, Logged.bind_eq, Logged.bind]
      cases ended : (f item).outcome with
      | error error => simp [Except.isOk, Except.toBool, ended]
      | ok value =>
          rw [List.takeWhile_cons_of_pos (by rw [ended]; rfl),
            List.dropWhile_cons_of_pos (by rw [ended]; rfl), List.cons_append, List.flatMap_cons, ← ih]
          exact congrArg (_ ++ ·) (Logged.events_bind_pure _ _)

end Lists

namespace Grammar

variable (grammar : Grammar) (reserved : ReservedWords)

theorem isOk_compileIntent (declared : String × List String) :
    (compileIntent (grammar.slots.map (compileSlot reserved)) reserved declared).outcome.isOk =
      grammar.builds reserved declared := by
  rw [builds, buildDeclared, compileIntent, Logged.mapError]
  cases (Intent.build declared.1 declared.2 (grammar.slots.map (compileSlot reserved))
    reserved).outcome <;> rfl

theorem events_compileIntent (declared : String × List String) :
    (compileIntent (grammar.slots.map (compileSlot reserved)) reserved declared).events =
      grammar.traceOf reserved declared :=
  grammar.events_buildDeclared reserved declared

/-- **Compiling reports exactly the trace of the grammar.** For each intent, up to and including
the first that cannot be built, these are the warnings at its spots in text order up to the first
that is not sound, and the numbers of a built intent; an intent is built if all its spots are
sound. If all intents are built, the numbers of intents and slots come last. -/
theorem compile_reports_exactly :
    (grammar.compile reserved).events = grammar.trace reserved ∧
    ∀ declared, grammar.builds reserved declared = true ↔
      ∀ spot ∈ spotsOf declared, spot.Sound grammar reserved := by
  refine ⟨?_, grammar.builds_iff reserved⟩
  let slots := grammar.slots.map (compileSlot reserved)
  have unfolded : grammar.compile reserved =
      grammar.expressions.mapM (compileIntent slots reserved) >>= fun intents =>
        ⟨[.compiledGrammar intents.length slots.length], .ok ⟨intents, slots⟩⟩ := rfl
  have events := Logged.events_mapM (compileIntent slots reserved) grammar.expressions
  have succeeds := Logged.isOk_mapM (compileIntent slots reserved) grammar.expressions
  simp only [slots, isOk_compileIntent, events_compileIntent] at events succeeds
  rw [unfolded, trace, ← events, ← succeeds]
  rcases built : grammar.expressions.mapM (compileIntent slots reserved) with
    ⟨reported, error | intents⟩
  · exact (List.append_nil reported).symm
  · have same := (Logged.mapM_eq_ok.mp (congrArg Logged.outcome built)).length_eq
    show reported ++ [_] = reported ++ [_]
    rw [same, List.length_map]

/-- A stray closer, a second type for one name and a group left open; then an intent that fails
before its second closer, behind which nothing is reported. -/
example : trace ⟨[("Color", ["red"]), ("Size", ["big"])], [("Paint", ["a) $Color:x [", "(b $Size:x"]),
      ("Mix", ["] $Color:y $Ink:z ]"]), ("Go", ["go )"])]⟩ .rust =
    [.unmatchedCloser "a) $Color:x [" ')', .unclosedGroup "a) $Color:x [" 1,
      .conflictingType "Paint" "x" "(b $Size:x", .unclosedGroup "(b $Size:x" 1,
      .builtIntent "Paint" 2 1 0, .unmatchedCloser "] $Color:y $Ink:z ]" ']'] := by
  decide +kernel

end Grammar

end VoiceGrammar
