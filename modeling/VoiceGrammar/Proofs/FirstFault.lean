/-
# A grammar compiles unless a reference is bad, and the first bad one is reported

Every `$` of a phrase is a place where a reference has to stand. `Place.Faulty` says
what can be wrong there, tested in this order: no reference stands there, its name
has been read before in the phrase, its tag names no type. `Grammar.places` lists the
places of a grammar in text order; neither speaks of how phrases are read.

Compiling reports the first faulty place (`Grammar.compile_reports`). `Reports` says
so of one outcome and one list of places, and it passes from parts to wholes
(`Reports.bind`, `Reports.foldlM`, `Reports.mapM`). Only the reading of one phrase
needs an induction of its own (`Scan.take_reports`): the scanner knows names as they
are written and the draft knows them escaped, and both are those of the earlier
places.
-/
import VoiceGrammar.Proofs.Compiled
import VoiceGrammar.Proofs.PhraseLayout

namespace VoiceGrammar

set_option autoImplicit false

/-! ## Outcomes that report the first fault -/

section Reports

variable {σ ε ε' α β : Type}

/-- The first of the places that has a fault has this one. -/
inductive FirstFault (faulty : σ → ε → Prop) : List σ → ε → Prop where
  | here {place : σ} {places : List σ} {error : ε} (fault : faulty place error) :
      FirstFault faulty (place :: places) error
  | later {place : σ} {places : List σ} {error : ε} (sound : ∀ other, ¬ faulty place other)
      (first : FirstFault faulty places error) : FirstFault faulty (place :: places) error

/-- The outcome is the first fault of the places, and a success if there is none. -/
def Reports (faulty : σ → ε → Prop) (places : List σ) : Except ε α → Prop
  | .ok _ => ∀ place ∈ places, ∀ error, ¬ faulty place error
  | .error error => FirstFault faulty places error

variable {faulty : σ → ε → Prop} {places more : List σ} {error : ε}

theorem FirstFault.append_right (first : FirstFault faulty places error) :
    FirstFault faulty (places ++ more) error := by
  induction first with
  | here fault => exact .here fault
  | later sound _ ih => exact .later sound ih

theorem FirstFault.append_left (first : FirstFault faulty more error)
    (sound : ∀ place ∈ places, ∀ other, ¬ faulty place other) :
    FirstFault faulty (places ++ more) error := by
  induction places with
  | nil => exact first
  | cons place places ih =>
      have rest := ih fun other member => sound other (List.mem_cons_of_mem _ member)
      exact .later (sound place List.mem_cons_self) rest

theorem FirstFault.cons_iff {place : σ} (sound : ∀ other, ¬ faulty place other) :
    FirstFault faulty (place :: places) error ↔ FirstFault faulty places error := by
  constructor
  · intro first
    cases first with
    | here fault => exact absurd fault (sound error)
    | later _ rest => exact rest
  · exact .later sound

theorem FirstFault.exists_faulty (first : FirstFault faulty places error) :
    ∃ place ∈ places, faulty place error := by
  induction first with
  | here fault => exact ⟨_, List.mem_cons_self, fault⟩
  | later _ _ ih =>
      obtain ⟨place, member, fault⟩ := ih
      exact ⟨place, List.mem_cons_of_mem _ member, fault⟩

theorem FirstFault.unique {other : ε}
    (functional : ∀ place first second, faulty place first → faulty place second → first = second)
    (first : FirstFault faulty places error) (second : FirstFault faulty places other) :
    error = other := by
  induction first with
  | here fault =>
      cases second with
      | here fault' => exact functional _ _ _ fault fault'
      | later sound _ => exact absurd fault (sound _)
  | later sound _ ih =>
      cases second with
      | here fault' => exact absurd fault' (sound _)
      | later _ rest => exact ih rest

/-- Faults that are told in other words stay where they are. -/
theorem FirstFault.translate {faulty' : σ → ε' → Prop} {f : ε → ε'}
    (told : ∀ place ∈ places, ∀ other, faulty place other → faulty' place (f other))
    (meant : ∀ place ∈ places, ∀ other, faulty' place other → ∃ error, faulty place error)
    (first : FirstFault faulty places error) : FirstFault faulty' places (f error) := by
  induction first with
  | here fault => exact .here (told _ List.mem_cons_self _ fault)
  | later sound _ ih =>
      refine .later (fun other fault => ?_) (ih (fun place member => ?_) (fun place member => ?_))
      · obtain ⟨error, fault⟩ := meant _ List.mem_cons_self other fault
        exact sound error fault
      · exact told place (List.mem_cons_of_mem _ member)
      · exact meant place (List.mem_cons_of_mem _ member)

theorem Reports.mapError {faulty' : σ → ε' → Prop} {f : ε → ε'}
    (told : ∀ place ∈ places, ∀ other, faulty place other → faulty' place (f other))
    (meant : ∀ place ∈ places, ∀ other, faulty' place other → ∃ error, faulty place error)
    {logged : Logged ε α} (reports : Reports faulty places logged.outcome) :
    Reports faulty' places (logged.mapError f).outcome := by
  rcases logged with ⟨events, error | value⟩
  · exact FirstFault.translate told meant reports
  · intro place member other fault
    obtain ⟨error, fault⟩ := meant place member other fault
    exact reports place member error fault

theorem Reports.bind {first : Except ε α} {next : α → Except ε β}
    (here : Reports faulty places first)
    (there : ∀ value, first = .ok value → Reports faulty more (next value)) :
    Reports faulty (places ++ more) (first >>= next) := by
  cases first with
  | error error => exact FirstFault.append_right here
  | ok value =>
      have rest := there value rfl
      rw [except_ok_bind]
      cases after : next value with
      | error error =>
          rw [after] at rest
          exact FirstFault.append_left rest here
      | ok final =>
          rw [after] at rest
          intro place member
          rcases List.mem_append.mp member with earlier | later
          · exact here place earlier
          · exact rest place later

/-- What follows cannot fail. -/
theorem Reports.map {outcome : Except ε α} {next : α → Except ε β} (f : α → β)
    (pure : ∀ value, next value = .ok (f value)) (reports : Reports faulty places outcome) :
    Reports faulty places (outcome >>= next) := by
  rw [← List.append_nil places]
  apply Reports.bind reports
  intro value _
  rw [pure]
  intro place none
  cases none

theorem Reports.foldlM {step : β → α → Except ε β} {placesOf : α → List σ}
    (each : ∀ state item, Reports faulty (placesOf item) (step state item))
    (items : List α) (state : β) :
    Reports faulty (items.flatMap placesOf) (items.foldlM step state) := by
  induction items generalizing state with
  | nil =>
      intro place none
      cases none
  | cons item items ih =>
      rw [List.flatMap_cons, List.foldlM_cons]
      apply Reports.bind (each state item)
      intro next _
      exact ih next

theorem Reports.mapM {f : α → Except ε β} {placesOf : α → List σ}
    (each : ∀ item, Reports faulty (placesOf item) (f item)) (items : List α) :
    Reports faulty (items.flatMap placesOf) (items.mapM f) := by
  induction items with
  | nil =>
      intro place none
      cases none
  | cons item items ih =>
      rw [List.flatMap_cons, List.mapM_cons]
      apply Reports.bind (each item)
      intro value _
      exact Reports.map (value :: ·) (fun _ => rfl) ih

theorem Reports.ok_iff {outcome : Except ε α} (reports : Reports faulty places outcome) :
    (∃ value, outcome = .ok value) ↔ ∀ place ∈ places, ∀ error, ¬ faulty place error := by
  cases outcome with
  | ok value => exact ⟨fun _ => reports, fun _ => ⟨value, rfl⟩⟩
  | error found =>
      constructor
      · rintro ⟨value, wrong⟩
        cases wrong
      · intro sound
        obtain ⟨place, member, fault⟩ := FirstFault.exists_faulty reports
        exact absurd fault (sound place member found)

theorem Reports.error_iff {outcome : Except ε α}
    (functional : ∀ place first second, faulty place first → faulty place second → first = second)
    (reports : Reports faulty places outcome) :
    outcome = .error error ↔ FirstFault faulty places error := by
  constructor
  · rintro rfl
    exact reports
  · intro first
    cases outcome with
    | ok value =>
        obtain ⟨place, member, fault⟩ := first.exists_faulty
        exact absurd fault (reports place member error)
    | error found => rw [FirstFault.unique functional reports first]

end Reports

/-! ## Places where references stand -/

namespace Phrase

/-- The reference stands at the beginning of the text, and its name ends where it ends. -/
def Reference.Begins (reference : Reference) (text : List Char) : Prop :=
  ∃ behind, text = reference.body ++ behind ∧ NameEnds behind

/-- One of the texts begins with a reference of that name. -/
def Names (texts : List (List Char)) (name : String) : Prop :=
  ∃ text ∈ texts, ∃ reference : Reference, reference.Begins text ∧ reference.name = name

end Phrase

/-- A `$` of a phrase. -/
structure Place where
  intent : String
  phrase : String
  /-- The texts behind the earlier `$` signs of the phrase, first to last. -/
  earlier : List (List Char)
  /-- The text behind this one. -/
  text : List Char

/-- The places in the rest of a phrase, left to right. -/
def Phrase.places (intent phrase : String) : List (List Char) → List Char → List Place
  | _, [] => []
  | earlier, c :: text =>
    if c = '$' then ⟨intent, phrase, earlier, text⟩ :: places intent phrase (earlier ++ [text]) text
    else places intent phrase earlier text

namespace Grammar

/-- The places of an intent, phrase by phrase. -/
def placesOf (declared : String × List String) : List Place :=
  declared.2.flatMap fun phrase => Phrase.places declared.1 phrase [] phrase.toList

/-- The places of a grammar, intent by intent. -/
def places (grammar : Grammar) : List Place :=
  grammar.expressions.flatMap placesOf

/-- The tag names a type: a built-in one or a declared slot. -/
def KnowsTag (grammar : Grammar) (reserved : ReservedWords) (tag : String) : Prop :=
  reserved.escape tag ∈ ValueType.builtins.map Prod.fst ∨
    ∃ slot ∈ grammar.slots, reserved.escape slot.1 = reserved.escape tag

end Grammar

namespace Place

/-- The name was read before in the phrase, as written or as escaped. -/
def Repeats (reserved : ReservedWords) (place : Place) (name : String) : Prop :=
  ∃ first, Phrase.Names place.earlier first ∧
    (first = name ∨ reserved.escape first = reserved.escape name)

/-- What is wrong with a place. -/
inductive Faulty (grammar : Grammar) (reserved : ReservedWords) (place : Place) :
    PhraseError → Prop where
  | malformed (missing : ∀ reference : Phrase.Reference, ¬ reference.Begins place.text) :
      Faulty grammar reserved place (.malformedReference place.phrase)
  | repeated {reference : Phrase.Reference} (written : reference.Begins place.text)
      (again : place.Repeats reserved reference.name) :
      Faulty grammar reserved place (.repeatedVariable place.phrase reference.name)
  | unknown {reference : Phrase.Reference} (written : reference.Begins place.text)
      (fresh : ¬ place.Repeats reserved reference.name)
      (untyped : ¬ grammar.KnowsTag reserved reference.tag) :
      Faulty grammar reserved place
        (.unknownSlotType place.phrase reference.name reference.tag)

/-- The error blames the intent of the place for what is wrong there. -/
def Blames (grammar : Grammar) (reserved : ReservedWords) (place : Place) (error : CompileError) :
    Prop :=
  error.intent = place.intent ∧ place.Faulty grammar reserved error.cause

end Place

namespace Phrase

theorem Reference.Begins.unique {first second : Reference} {text : List Char}
    (begins : first.Begins text) (begins' : second.Begins text) : first = second := by
  obtain ⟨behind, rfl, ends⟩ := begins
  obtain ⟨after, same, ends'⟩ := begins'
  exact (Reference.body_append_inj same ends ends').1

theorem Reference.begins_body (reference : Reference) {behind : List Char}
    (ends : NameEnds behind) : reference.Begins (reference.body ++ behind) :=
  ⟨behind, rfl, ends⟩

theorem names_concat {texts : List (List Char)} {reference : Reference} {behind : List Char}
    (ends : NameEnds behind) (name : String) :
    Names (texts ++ [reference.body ++ behind]) name ↔ Names texts name ∨ reference.name = name := by
  constructor
  · rintro ⟨text, member, other, begins, named⟩
    rcases List.mem_append.mp member with earlier | last
    · exact .inl ⟨text, earlier, other, begins, named⟩
    · rw [List.mem_singleton.mp last] at begins
      rw [begins.unique (reference.begins_body ends)] at named
      exact .inr named
  · rintro (⟨text, member, other, begins, named⟩ | named)
    · exact ⟨text, List.mem_append_left _ member, other, begins, named⟩
    · exact ⟨_, by simp, reference, reference.begins_body ends, named⟩

variable (intent phrase : String)

theorem places_plain {opening : List Char} (plain : '$' ∉ opening) (earlier : List (List Char))
    (text : List Char) :
    places intent phrase earlier (opening ++ text) = places intent phrase earlier text := by
  induction opening with
  | nil => rfl
  | cons c opening ih =>
      rw [List.mem_cons, not_or] at plain
      rw [List.cons_append, places, if_neg (Ne.symm plain.1)]
      exact ih plain.2

theorem places_dollar (earlier : List (List Char)) (text : List Char) :
    places intent phrase earlier ('$' :: text) =
      ⟨intent, phrase, earlier, text⟩ :: places intent phrase (earlier ++ [text]) text := by
  rw [places, if_pos rfl]

theorem intent_of_mem_places {earlier : List (List Char)} {text : List Char} {place : Place}
    (member : place ∈ places intent phrase earlier text) : place.intent = intent := by
  induction text generalizing earlier with
  | nil => cases member
  | cons c text ih =>
      rw [places] at member
      split at member
      · rcases List.mem_cons.mp member with rfl | later
        · rfl
        · exact ih later
      · exact ih member

end Phrase

theorem Grammar.intent_of_mem_placesOf {declared : String × List String} {place : Place}
    (member : place ∈ placesOf declared) : place.intent = declared.1 := by
  obtain ⟨phrase, -, member⟩ := List.mem_flatMap.mp member
  exact Phrase.intent_of_mem_places _ _ member

namespace Place

variable {grammar : Grammar} {reserved : ReservedWords} {place : Place}

theorem Faulty.unique {first second : PhraseError} (fault : place.Faulty grammar reserved first)
    (fault' : place.Faulty grammar reserved second) : first = second := by
  cases fault with
  | malformed missing =>
      cases fault' with
      | malformed => rfl
      | repeated written => exact absurd written (missing _)
      | unknown written => exact absurd written (missing _)
  | repeated written again =>
      cases fault' with
      | malformed missing => exact absurd written (missing _)
      | repeated written' => rw [written.unique written']
      | unknown written' fresh => exact absurd (written.unique written' ▸ again) fresh
  | unknown written fresh =>
      cases fault' with
      | malformed missing => exact absurd written (missing _)
      | repeated written' again => exact absurd (written'.unique written ▸ again) fresh
      | unknown written' => rw [written.unique written']

theorem Blames.unique {first second : CompileError} (blames : place.Blames grammar reserved first)
    (blames' : place.Blames grammar reserved second) : first = second := by
  obtain ⟨intent, cause⟩ := first
  obtain ⟨intent', cause'⟩ := second
  obtain ⟨named, fault⟩ := blames
  obtain ⟨named', fault'⟩ := blames'
  rw [CompileError.mk.injEq]
  exact ⟨named.trans named'.symm, fault.unique fault'⟩

end Place

/-! ## Reading one phrase -/

theorem ValueType.resolve?_eq_none_iff {slots : List Slot} {tag : String} :
    resolve? slots tag = none ↔ tag ∉ builtins.map Prod.fst ∧ ∀ slot ∈ slots, slot.name ≠ tag := by
  unfold resolve? builtin?
  cases found : builtins.lookup tag with
  | some type =>
      obtain ⟨before, after, listed, -⟩ := List.lookup_eq_some_iff.mp found
      simp [listed]
  | none =>
      have absent := lookup_eq_none_iff_notMem.mp found
      simp [absent]

namespace Intent

/-- What adding an occurrence fails with. -/
theorem Draft.add_eq_error {setting : Setting} {phrase : String} {draft : Draft}
    {occurrence : Occurrence} {error : PhraseError} :
    (draft.add setting phrase occurrence).outcome = .error error →
      (setting.nameOf occurrence ∈ draft.names ∧ error = .repeatedVariable phrase occurrence.name) ∨
      (setting.nameOf occurrence ∉ draft.names ∧ setting.typeOf? occurrence = none ∧
        error = .unknownSlotType phrase occurrence.name occurrence.tag) := by
  unfold Draft.add Setting.nameOf Setting.typeOf?
  dsimp only
  intro failed
  split at failed
  · rename_i known
    cases failed
    exact .inl ⟨by simpa using known, rfl⟩
  · rename_i fresh
    split at failed
    · rename_i unresolved
      cases failed
      exact .inr ⟨by simpa using fresh, unresolved, rfl⟩
    · split at failed <;> cases failed

/-- Take in one item of the reading of a phrase. -/
def Draft.take (setting : Setting) (phrase : String) (draft : Draft) :
    ScanItem → Except PhraseError Draft
  | .ok occurrence => (draft.add setting phrase occurrence).outcome
  | .error error => .error error

/-- What is reported between items leaves the draft as it is. -/
theorem outcome_read_eq_take (setting : Setting) (phrase : String) (signals : List Scan.Signal)
    (draft : Draft) :
    (signals.foldlM (Draft.read setting phrase) draft).outcome =
      (signals.filterMap Scan.Signal.item?).foldlM (Draft.take setting phrase) draft := by
  rw [Logged.outcome_foldlM]
  induction signals generalizing draft with
  | nil => rfl
  | cons signal signals ih =>
      cases signal with
      | event event => exact ih draft
      | fault error => rfl
      | occurrence occurrence =>
          rw [List.foldlM_cons, List.filterMap_cons]
          show (draft.add setting phrase occurrence).outcome >>= _ = List.foldlM _ draft (_ :: _)
          rw [List.foldlM_cons]
          simp only [ih]
          rfl

theorem outcome_readPhrase (setting : Setting) (vars : List Variable) (phrase : String) :
    (readPhrase setting vars phrase).outcome =
      (Scan.start phrase).items.foldlM (Draft.take setting phrase) ⟨vars, [], []⟩ :=
  outcome_read_eq_take setting phrase (Phrase.signals phrase) _

end Intent

namespace Grammar

variable (grammar : Grammar) (reserved : ReservedWords)

/-- What the phrases of one of the grammar's intents are read against. -/
def settingOf (intent : String) : Intent.Setting :=
  ⟨intent, grammar.slots.map (compileSlot reserved), reserved⟩

theorem typeOf?_eq_none_iff {intent : String} {occurrence : Occurrence} :
    (grammar.settingOf reserved intent).typeOf? occurrence = none ↔
      ¬ grammar.KnowsTag reserved occurrence.tag := by
  rw [Intent.Setting.typeOf?, ValueType.resolve?_eq_none_iff, KnowsTag, not_or]
  refine and_congr_right fun _ => ?_
  rw [settingOf, List.forall_mem_map]
  constructor
  · rintro apart ⟨slot, declared, same⟩
    exact apart slot declared same
  · intro undeclared slot declared same
    exact undeclared ⟨slot, declared, same⟩

end Grammar

namespace Scan

open Phrase Intent

variable {grammar : Grammar} {reserved : ReservedWords} {intent : String} {scan : Scan}
  {earlier : List (List Char)} {draft : Draft}

/-- Behind a reference its name is known too. -/
theorem mem_seen_concat {reference : Reference} {behind : List Char} (ends : NameEnds behind)
    (seen : ∀ name, name ∈ scan.seen ↔ Names earlier name) (name : String) :
    name ∈ scan.seen ++ [reference.name] ↔ Names (earlier ++ [reference.body ++ behind]) name := by
  rw [names_concat ends, ← seen, List.mem_append, List.mem_singleton]
  exact or_congr_right eq_comm

/-- Where the reader stops, a place is faulty. -/
theorem faulty_of_ends {text : List Char} {fault : PhraseError}
    (seen : ∀ name, name ∈ scan.seen ↔ Names earlier name)
    (ends : Ends scan.phrase scan.seen ('$' :: text) (some fault)) :
    Place.Faulty grammar reserved ⟨intent, scan.phrase, earlier, text⟩ fault := by
  generalize written : '$' :: text = ending at ends
  generalize reported : some fault = fault? at ends
  cases ends with
  | finished => cases written
  | malformed missing =>
      cases written
      cases reported
      refine .malformed fun reference begins => ?_
      obtain ⟨behind, same, -⟩ := begins
      exact missing reference behind same
  | repeated reference ends again =>
      cases written
      cases reported
      exact .repeated (reference.begins_body ends) ⟨reference.name, (seen _).mp again, .inl rfl⟩

/-- Adding a reference that could be read reports what else is wrong with its place. -/
theorem add_reports {reference : Reference} {behind : List Char} {optional : Bool}
    (ends : NameEnds behind) (fresh : reference.name ∉ scan.seen)
    (seen : ∀ name, name ∈ scan.seen ↔ Names earlier name)
    (names : draft.names = scan.seen.map reserved.escape) :
    Reports (Place.Faulty grammar reserved)
      [⟨intent, scan.phrase, earlier, reference.body ++ behind⟩]
      (draft.add (grammar.settingOf reserved intent) scan.phrase
        ⟨reference.tag, reference.name, optional⟩).outcome := by
  have begins := reference.begins_body ends
  -- a name that differs as written can only have been read before as escaped
  have repeats : reserved.escape reference.name ∈ draft.names ↔
      Place.Repeats reserved ⟨intent, scan.phrase, earlier, reference.body ++ behind⟩
        reference.name := by
    rw [names, List.mem_map]
    constructor
    · rintro ⟨first, read, same⟩
      exact ⟨first, (seen first).mp read, .inr same⟩
    · rintro ⟨first, read, same | same⟩
      · exact absurd ((seen first).mpr read) (same ▸ fresh)
      · exact ⟨first, (seen first).mpr read, same⟩
  cases added : (draft.add (grammar.settingOf reserved intent) scan.phrase
      ⟨reference.tag, reference.name, optional⟩).outcome with
  | error error =>
      rcases Draft.add_eq_error added with ⟨known, rfl⟩ | ⟨unread, untyped, rfl⟩
      · exact .here (.repeated begins (repeats.mp known))
      · exact .here (.unknown begins (mt repeats.mpr unread)
          ((grammar.typeOf?_eq_none_iff reserved).mp untyped))
  | ok next =>
      obtain ⟨unread, type, typed, -⟩ := Draft.add_eq_ok.mp added
      intro place member error fault
      rw [List.mem_singleton] at member
      subst member
      cases fault with
      | malformed missing => exact missing _ begins
      | repeated written again =>
          rw [written.unique begins] at again
          exact unread (repeats.mpr again)
      | unknown written _ untyped =>
          rw [written.unique begins] at untyped
          have none : (grammar.settingOf reserved intent).typeOf?
              ⟨reference.tag, reference.name, optional⟩ = none :=
            (grammar.typeOf?_eq_none_iff reserved).mpr untyped
          rw [none] at typed
          cases typed

/-- Reading on reports the first fault in the rest of the phrase. The induction carries that
the names known to the reader and to the draft are those of the places behind. -/
theorem take_reports (reading : scan.done = false)
    (seen : ∀ name, name ∈ scan.seen ↔ Names earlier name)
    (names : draft.names = scan.seen.map reserved.escape) :
    Reports (Place.Faulty grammar reserved) (places intent scan.phrase earlier scan.rest)
      (scan.items.foldlM (Draft.take (grammar.settingOf reserved intent) scan.phrase) draft) := by
  induction size : scan.rest.length using Nat.strongRecOn generalizing scan earlier draft with
  | ind size ih =>
      cases advances reading with
      | finished plain nothing done =>
          have none := places_plain intent scan.phrase plain earlier []
          rw [List.append_nil] at none
          rw [items_of_none nothing, none]
          intro place member
          cases member
      | stopped plain rest ends item done =>
          rw [items_of_error item, rest, places_plain _ _ plain, places_dollar]
          exact .here (faulty_of_ends seen ends)
      | @read opening behind depth reference plain rest ends fresh item after =>
          have shorter := next_rest_length scan item
          have reading' : scan.next.scan.done = false := by rw [after]; exact reading
          rw [items_of_ok item, rest, places_plain _ _ plain, places_dollar,
            places_plain _ _ reference.dollar_not_mem_body, List.foldlM_cons]
          change Reports _ ([_] ++ _) _
          apply Reports.bind (add_reports ends fresh seen names)
          intro next added
          obtain ⟨-, _, -, grown⟩ := Draft.add_eq_ok.mp added
          have seen' : ∀ name, name ∈ scan.next.scan.seen ↔
              Names (earlier ++ [reference.body ++ behind]) name := by
            rw [after]
            exact mem_seen_concat ends seen
          have names' : next.names = scan.next.scan.seen.map reserved.escape := by
            rw [grown, after, names, List.map_append]
            rfl
          have further := ih _ (by omega) reading' seen' names' rfl
          rw [after] at further ⊢
          exact further

end Scan

/-! ## Whole grammars -/

namespace Grammar

variable (grammar : Grammar) (reserved : ReservedWords)

theorem readPhrase_reports (intent : String) (vars : List Variable) (phrase : String) :
    Reports (Place.Faulty grammar reserved) (Phrase.places intent phrase [] phrase.toList)
      (Intent.readPhrase (grammar.settingOf reserved intent) vars phrase).outcome := by
  rw [Intent.outcome_readPhrase]
  refine @Scan.take_reports grammar reserved intent (Scan.start phrase) [] ⟨vars, [], []⟩ rfl ?_ rfl
  intro name
  constructor
  · intro member
    cases member
  · rintro ⟨text, member, -⟩
    cases member

theorem build_reports (declared : String × List String) :
    Reports (Place.Faulty grammar reserved) (placesOf declared)
      (Intent.build declared.1 declared.2 (grammar.slots.map (compileSlot reserved))
        reserved).outcome := by
  rw [Intent.build, Logged.outcome_bind, Logged.outcome_foldlM]
  refine Reports.map _ (fun progress => rfl) (Reports.foldlM ?_ _ _)
  intro progress phrase
  rw [Intent.Progress.read, Logged.outcome_bind]
  exact Reports.map _ (fun draft => rfl) (grammar.readPhrase_reports reserved _ _ phrase)

theorem compileIntent_reports (declared : String × List String) :
    Reports (Place.Blames grammar reserved) (placesOf declared)
      (compileIntent (grammar.slots.map (compileSlot reserved)) reserved declared).outcome := by
  refine Reports.mapError ?_ ?_ (grammar.build_reports reserved declared)
  · intro place member fault faulty
    exact ⟨(intent_of_mem_placesOf member).symm, faulty⟩
  · intro place _ error blames
    exact ⟨error.cause, blames.2⟩

theorem compile_reports :
    Reports (Place.Blames grammar reserved) grammar.places (grammar.compile reserved).outcome := by
  rw [compile, Logged.outcome_bind, Logged.outcome_mapM]
  exact Reports.map _ (fun intents => rfl)
    (Reports.mapM (grammar.compileIntent_reports reserved) grammar.expressions)

/-- **Compiling succeeds exactly if no place is faulty, and otherwise reports the first that
is**: with the phrase, the name and the tag as they are written, and under the name of the intent
that the place belongs to. -/
theorem compile_reports_first_fault :
    ((∃ model, (grammar.compile reserved).outcome = .ok model) ↔
      ∀ place ∈ grammar.places, ¬ ∃ fault, place.Faulty grammar reserved fault) ∧
    ∀ error, (grammar.compile reserved).outcome = .error error ↔
      FirstFault (Place.Blames grammar reserved) grammar.places error := by
  have reports := grammar.compile_reports reserved
  refine ⟨reports.ok_iff.trans ⟨fun sound place member => ?_, fun sound place member => ?_⟩,
    fun error => reports.error_iff fun place _ _ => Place.Blames.unique⟩
  · rintro ⟨fault, faulty⟩
    exact sound place member ⟨place.intent, fault⟩ ⟨rfl, faulty⟩
  · intro error blames
    exact sound place member ⟨error.cause, blames.2⟩

/-- The unknown tag stands before the repeated name, which stands before the lone `$`. -/
example : (compile ⟨[("Color", [])], [("Go", ["go"]), ("Mix", ["$Color:true $Ink:x $Color:True $"])]⟩
    .rust).outcome = .error ⟨"Mix", .unknownSlotType "$Color:true $Ink:x $Color:True $" "x" "Ink"⟩ := by
  decide +kernel

end Grammar

end VoiceGrammar
