/-
# The variables of an intent, and which of them are required

`firstMentions` and `RequiredBy` say what the variables of an intent ought to be
without building it: the references of all phrases in text order, each escaped name
only where it first occurs, required if every phrase has it outside all groups.

Building agrees with them. `Draft.Reflects` is what holds while one phrase is read
and `Progress.Reflects` what holds between phrases; each step keeps them
(`Draft.read_reflects`, `Progress.read_reflects`), so they hold behind the loops.
-/
import Mathlib.Data.List.Induction
import VoiceGrammar.Intent
import VoiceGrammar.Proofs.Outcome

namespace VoiceGrammar

set_option autoImplicit false

/-! ## Lists without repeated keys -/

section FirstOccurrences

variable {α : Type} (key : α → String)

/-- The members of a list, each key only where it first occurs. -/
def firsts (items : List α) : List α :=
  items.eraseDupsBy fun a b => key a == key b

theorem firsts_cons (item : α) (items : List α) :
    firsts key (item :: items) =
      item :: firsts key (items.filter fun other => key other != key item) := by
  rw [firsts, List.eraseDupsBy_cons, firsts]
  congr 3
  funext other
  by_cases same : key other = key item <;> simp [same]

/-- One more member is kept if its key is new. -/
theorem firsts_concat (items : List α) (item : α) :
    firsts key (items ++ [item]) =
      firsts key items ++ if key item ∈ items.map key then [] else [item] := by
  induction size : items.length using Nat.strongRecOn generalizing items with
  | ind size ih =>
      cases items with
      | nil => rfl
      | cons first items =>
          have shorter := List.length_filter_le (fun other => key other != key first) items
          have rest := ih _ (by rw [← size, List.length_cons]; omega)
            (items.filter fun other => key other != key first) rfl
          rw [List.cons_append, firsts_cons, firsts_cons, List.filter_append]
          by_cases same : key item = key first
          · simp [same]
          · have kept : [item].filter (fun other => key other != key first) = [item] := by
              simp [same]
            have known : key item ∈ (items.filter fun other => key other != key first).map key ↔
                key item ∈ (first :: items).map key := by
              simp only [List.mem_map, List.mem_filter, bne_iff_ne, List.map_cons, List.mem_cons,
                same, false_or]
              constructor
              · rintro ⟨other, ⟨member, -⟩, equal⟩
                exact ⟨other, member, equal⟩
              · rintro ⟨other, member, equal⟩
                exact ⟨other, ⟨member, equal ▸ same⟩, equal⟩
            rw [kept, rest, List.cons_append]
            simp only [known]

theorem mem_map_firsts (items : List α) (name : String) :
    name ∈ (firsts key items).map key ↔ name ∈ items.map key := by
  induction items using List.reverseRecOn with
  | nil => rfl
  | append_singleton items item ih =>
      rw [firsts_concat, List.map_append, List.mem_append, ih, List.map_append, List.mem_append]
      split
      · rename_i known
        constructor
        · exact fun member => .inl (by simpa using member)
        · rintro (member | member)
          · exact .inl member
          · rw [List.map_singleton, List.mem_singleton] at member
            exact .inl (member ▸ known)
      · rfl

theorem nodup_map_firsts (items : List α) : ((firsts key items).map key).Nodup := by
  induction items using List.reverseRecOn with
  | nil => exact List.nodup_nil
  | append_singleton items item ih =>
      rw [firsts_concat]
      split
      · simpa using ih
      · rename_i fresh
        rw [List.map_append, List.map_singleton, nodup_concat_iff, mem_map_firsts]
        exact ⟨fresh, ih⟩

/-- What is kept of further members comes behind and has new keys. -/
theorem firsts_append (items more : List α) :
    ∃ added, firsts key (items ++ more) = firsts key items ++ added ∧
      ∀ item ∈ added, key item ∉ items.map key := by
  induction more using List.reverseRecOn with
  | nil => exact ⟨[], by simp, by simp⟩
  | append_singleton more last ih =>
      obtain ⟨added, split, fresh⟩ := ih
      rw [← List.append_assoc, firsts_concat, split]
      by_cases known : key last ∈ (items ++ more).map key
      · exact ⟨added, by rw [if_pos known, List.append_nil], fresh⟩
      · refine ⟨added ++ [last], by rw [if_neg known, List.append_assoc], ?_⟩
        intro item member
        rcases List.mem_append.mp member with earlier | here
        · exact fresh item earlier
        · rw [List.mem_singleton.mp here]
          rw [List.map_append, List.mem_append, not_or] at known
          exact known.1

/-- A member that is kept is the first one with its key. -/
theorem find?_of_mem_firsts {items : List α} {item : α} (kept : item ∈ firsts key items) :
    items.find? (fun other => key other == key item) = some item := by
  induction items using List.reverseRecOn with
  | nil => cases kept
  | append_singleton items last ih =>
      rw [firsts_concat] at kept
      rw [List.find?_append]
      rcases List.mem_append.mp kept with earlier | added
      · rw [ih earlier, Option.some_or]
      · split at added
        · cases added
        · rename_i fresh
          rw [List.mem_singleton] at added
          subst added
          have absent : items.find? (fun other => key other == key item) = none := by
            rw [List.find?_eq_none]
            intro other member same
            exact fresh (List.mem_map.mpr ⟨other, member, by simpa using same⟩)
          rw [absent, Option.none_or, List.find?_cons_of_pos (by simp)]

end FirstOccurrences

namespace Intent

/-! ## What the variables ought to be -/

/-- The references of all phrases in text order, each escaped name only where it first
occurs. -/
def firstMentions (reserved : ReservedWords) (phrases : List String) : List Occurrence :=
  firsts (fun o => reserved.escape o.name) (phrases.flatMap Phrase.occurrences)

/-- Every phrase has the name outside all groups. -/
def RequiredBy (reserved : ReservedWords) (phrases : List String) (name : String) : Prop :=
  ∀ phrase ∈ phrases, ∃ o ∈ Phrase.occurrences phrase,
    reserved.escape o.name = name ∧ o.optional = false

instance (reserved : ReservedWords) (phrases : List String) (name : String) :
    Decidable (RequiredBy reserved phrases name) :=
  inferInstanceAs (Decidable (∀ phrase ∈ phrases, ∃ o ∈ Phrase.occurrences phrase,
    reserved.escape o.name = name ∧ o.optional = false))

/-- The name that an occurrence has in the intent. -/
def Setting.nameOf (setting : Setting) (occurrence : Occurrence) : String :=
  setting.reserved.escape occurrence.name

/-- The type that an occurrence would give its variable. -/
def Setting.typeOf? (setting : Setting) (occurrence : Occurrence) : Option ValueType :=
  ValueType.resolve? setting.slots (setting.reserved.escape occurrence.tag)

/-- The variables have the names and types of the first occurrences. -/
def Declares (setting : Setting) (vars : List Variable) (occurrences : List Occurrence) : Prop :=
  vars.map (fun v => (v.name, some v.type)) =
    (firsts setting.nameOf occurrences).map fun o => (setting.nameOf o, setting.typeOf? o)

theorem Declares.names {setting : Setting} {vars : List Variable} {occurrences : List Occurrence}
    (declares : Declares setting vars occurrences) :
    vars.map (·.name) = (firsts setting.nameOf occurrences).map setting.nameOf := by
  have := congrArg (List.map Prod.fst) declares
  simpa [Function.comp_def] using this

theorem Declares.mem_names {setting : Setting} {vars : List Variable}
    {occurrences : List Occurrence} (declares : Declares setting vars occurrences) (name : String) :
    name ∈ vars.map (·.name) ↔ name ∈ occurrences.map setting.nameOf := by
  rw [declares.names, mem_map_firsts]

/-! ## Reading one phrase -/

/-- What adding an occurrence asks for and does. -/
theorem Draft.add_eq_ok {setting : Setting} {phrase : String} {draft next : Draft}
    {occurrence : Occurrence} :
    (draft.add setting phrase occurrence).outcome = .ok next ↔
      setting.nameOf occurrence ∉ draft.names ∧
      ∃ type, setting.typeOf? occurrence = some type ∧
        next = {
          vars := if setting.nameOf occurrence ∈ draft.vars.map (·.name) then draft.vars
            else draft.vars ++ [⟨setting.nameOf occurrence, type, false⟩]
          names := draft.names ++ [setting.nameOf occurrence]
          required := if occurrence.optional then draft.required
            else draft.required ++ [setting.nameOf occurrence] } := by
  unfold Draft.add Setting.nameOf Setting.typeOf?
  dsimp only
  by_cases known : setting.reserved.escape occurrence.name ∈ draft.names
  · simp [known, Logged.fail]
  · simp only [List.contains_eq_mem, known, decide_false, Bool.false_eq_true, if_false,
      not_false_eq_true, true_and]
    cases ValueType.resolve? setting.slots (setting.reserved.escape occurrence.tag) with
    | none => simp [Logged.fail]
    | some type =>
        cases found : draft.vars.find? (·.name == setting.reserved.escape occurrence.name) with
        | none =>
            have fresh : setting.reserved.escape occurrence.name ∉ draft.vars.map (·.name) := by
              simpa [List.find?_eq_none] using found
            constructor
            · intro added
              cases added
              exact ⟨type, rfl, by rw [if_neg fresh]⟩
            · rintro ⟨_, same, rfl⟩
              cases same
              rw [if_neg fresh]
              rfl
        | some first =>
            have old : setting.reserved.escape occurrence.name ∈ draft.vars.map (·.name) := by
              have named := List.find?_some found
              exact List.mem_map.mpr ⟨first, List.mem_of_find?_eq_some found, by simpa using named⟩
            constructor
            · intro added
              cases added
              exact ⟨type, rfl, by rw [if_pos old]⟩
            · rintro ⟨_, same, rfl⟩
              cases same
              rw [if_pos old]

theorem Declares.concat {setting : Setting} {vars : List Variable}
    {occurrences : List Occurrence} (declares : Declares setting vars occurrences)
    {occurrence : Occurrence} {type : ValueType}
    (resolved : setting.typeOf? occurrence = some type) :
    Declares setting
      (if setting.nameOf occurrence ∈ vars.map (·.name) then vars
        else vars ++ [⟨setting.nameOf occurrence, type, false⟩])
      (occurrences ++ [occurrence]) := by
  unfold Declares
  rw [firsts_concat]
  by_cases known : setting.nameOf occurrence ∈ occurrences.map setting.nameOf
  · rw [if_pos ((declares.mem_names _).mpr known), if_pos known, List.append_nil]
    exact declares
  · rw [if_neg (mt (declares.mem_names _).mp known), if_neg known, List.map_append,
      List.map_append, declares, List.map_singleton, List.map_singleton, resolved]

/-- The occurrences in a part of a reading. -/
def occurrencesIn (signals : List Scan.Signal) : List Occurrence :=
  signals.filterMap fun
    | .occurrence occurrence => some occurrence
    | _ => none

theorem occurrencesIn_concat (signals : List Scan.Signal) (signal : Scan.Signal) :
    occurrencesIn (signals ++ [signal]) = occurrencesIn signals ++ occurrencesIn [signal] :=
  List.filterMap_append

/-- A draft made of `earlier` occurrences, from phrases read before, and of the part of the
current phrase that has been read. -/
structure Draft.Reflects (setting : Setting) (earlier : List Occurrence)
    (signals : List Scan.Signal) (draft : Draft) : Prop where
  faultless : ∀ error, Scan.Signal.fault error ∉ signals
  declares : Declares setting draft.vars (earlier ++ occurrencesIn signals)
  names : draft.names = (occurrencesIn signals).map setting.nameOf
  distinct : draft.names.Nodup
  required : draft.required =
    ((occurrencesIn signals).filter (!·.optional)).map setting.nameOf

theorem Draft.read_reflects {setting : Setting} {phrase : String} {earlier : List Occurrence}
    {signals : List Scan.Signal} {signal : Scan.Signal} {draft next : Draft}
    (reflects : draft.Reflects setting earlier signals)
    (read : (draft.read setting phrase signal).outcome = .ok next) :
    next.Reflects setting earlier (signals ++ [signal]) := by
  cases signal with
  | event event =>
      cases read
      exact {
        faultless := by simpa using reflects.faultless
        declares := by rw [occurrencesIn_concat]; simpa [occurrencesIn] using reflects.declares
        names := by rw [occurrencesIn_concat]; simpa [occurrencesIn] using reflects.names
        distinct := reflects.distinct
        required := by rw [occurrencesIn_concat]; simpa [occurrencesIn] using reflects.required }
  | fault error => cases read
  | occurrence occurrence =>
      obtain ⟨fresh, type, resolved, rfl⟩ := Draft.add_eq_ok.mp read
      have one : occurrencesIn [.occurrence occurrence] = [occurrence] := rfl
      exact {
        faultless := by simpa using reflects.faultless
        declares := by
          rw [occurrencesIn_concat, one, ← List.append_assoc]
          exact reflects.declares.concat resolved
        names := by rw [occurrencesIn_concat, one, List.map_append, reflects.names]; rfl
        distinct := nodup_concat_iff.mpr ⟨fresh, reflects.distinct⟩
        required := by
          rw [occurrencesIn_concat, one, List.filter_append, List.map_append, ← reflects.required]
          cases optional : occurrence.optional <;> simp [optional] }

theorem readPhrase_reflects {setting : Setting} {vars : List Variable} {phrase : String}
    {earlier : List Occurrence} {draft : Draft} (declares : Declares setting vars earlier)
    (read : (readPhrase setting vars phrase).outcome = .ok draft) :
    draft.Reflects setting earlier (Phrase.signals phrase) := by
  refine Logged.foldlM_invariant (Draft.Reflects setting earlier)
    (fun _ _ _ _ reflects step => Draft.read_reflects reflects step) ?_ read
  exact ⟨by simp, by simpa [occurrencesIn] using declares, rfl, List.nodup_nil, rfl⟩

/-! ## Reading all phrases -/

/-- What is known between phrases. -/
structure Progress.Reflects (setting : Setting) (phrases : List String) (progress : Progress) :
    Prop where
  declares : Declares setting progress.vars (phrases.flatMap Phrase.occurrences)
  required : match progress.required with
    | none => phrases = []
    | some names => ∀ name, name ∈ names ↔ RequiredBy setting.reserved phrases name

theorem requiredBy_concat {reserved : ReservedWords} {phrases : List String} {phrase name : String} :
    RequiredBy reserved (phrases ++ [phrase]) name ↔
      RequiredBy reserved phrases name ∧ RequiredBy reserved [phrase] name := by
  simp [RequiredBy, or_imp, forall_and]

theorem Draft.Reflects.mem_required {setting : Setting} {earlier : List Occurrence}
    {phrase name : String} {draft : Draft}
    (reflects : draft.Reflects setting earlier (Phrase.signals phrase)) :
    name ∈ draft.required ↔ RequiredBy setting.reserved [phrase] name := by
  rw [reflects.required]
  simp only [RequiredBy, List.mem_singleton, forall_eq, List.mem_map, List.mem_filter,
    Bool.not_eq_true', Setting.nameOf]
  exact ⟨fun ⟨o, ⟨member, optional⟩, same⟩ => ⟨o, member, same, optional⟩,
    fun ⟨o, member, same, optional⟩ => ⟨o, ⟨member, optional⟩, same⟩⟩

theorem Progress.read_reflects {setting : Setting} {phrases : List String} {phrase : String}
    {progress next : Progress} (reflects : progress.Reflects setting phrases)
    (read : (progress.read setting phrase).outcome = .ok next) :
    next.Reflects setting (phrases ++ [phrase]) := by
  obtain ⟨draft, readPhrase, same⟩ := Logged.bind_eq_ok.mp read
  cases same
  have here := readPhrase_reflects reflects.declares readPhrase
  have required := reflects.required
  refine ⟨by rw [List.flatMap_append, List.flatMap_singleton]; exact here.declares, ?_⟩
  cases before : progress.required with
  | none =>
      rw [before] at required
      subst required
      exact fun name => here.mem_required
  | some names =>
      rw [before] at required
      intro name
      rw [requiredBy_concat, List.mem_filter, List.contains_eq_mem, decide_eq_true_iff,
        here.mem_required, required]

/-- A built intent is what its phrases come to. -/
theorem build_eq_ok {name : String} {phrases : List String} {slots : List Slot}
    {reserved : ReservedWords} {intent : Intent}
    (built : (build name phrases slots reserved).outcome = .ok intent) :
    ∃ progress : Progress, progress.Reflects ⟨name, slots, reserved⟩ phrases ∧
      intent = ⟨name, progress.vars.map fun v =>
        { v with required := (progress.required.getD []).contains v.name }⟩ := by
  obtain ⟨progress, read, rest⟩ := Logged.bind_eq_ok.mp built
  obtain ⟨_, -, same⟩ := Logged.bind_eq_ok.mp rest
  cases same
  refine ⟨progress, ?_, rfl⟩
  exact Logged.foldlM_invariant (Progress.Reflects ⟨name, slots, reserved⟩)
    (fun _ _ _ _ reflects step => Progress.read_reflects reflects step)
    ⟨by simp [Declares, firsts], rfl⟩ read

theorem Progress.Reflects.contains_required {setting : Setting} {phrases : List String}
    {progress : Progress} (reflects : progress.Reflects setting phrases) (nonempty : phrases ≠ [])
    (name : String) :
    (progress.required.getD []).contains name = decide (RequiredBy setting.reserved phrases name) := by
  have required := reflects.required
  cases before : progress.required with
  | none =>
      rw [before] at required
      exact absurd required nonempty
  | some names =>
      rw [before] at required
      rw [Option.getD_some, List.contains_eq_mem]
      exact decide_eq_decide.mpr (required name)

section Built

variable {name : String} {phrases : List String} {slots : List Slot} {reserved : ReservedWords}
  {intent : Intent}

theorem build_name (built : (build name phrases slots reserved).outcome = .ok intent) :
    intent.name = name := by
  obtain ⟨progress, -, rfl⟩ := build_eq_ok built
  rfl

/-- Names, types and requiredness of the variables, in order. -/
theorem build_vars (built : (build name phrases slots reserved).outcome = .ok intent) :
    intent.vars.map (fun v => (v.name, some v.type, v.required)) =
      (firstMentions reserved phrases).map fun o =>
        (reserved.escape o.name, ValueType.resolve? slots (reserved.escape o.tag),
          decide (RequiredBy reserved phrases (reserved.escape o.name))) := by
  obtain ⟨progress, reflects, rfl⟩ := build_eq_ok built
  have pairs := congrArg (List.map fun pair : String × Option ValueType =>
    (pair.1, pair.2, (progress.required.getD []).contains pair.1)) reflects.declares
  rw [List.map_map, List.map_map] at pairs
  rw [List.map_map]
  refine pairs.trans (List.map_congr_left fun o member => ?_)
  have nonempty : phrases ≠ [] := by
    rintro rfl
    cases member
  exact Prod.ext rfl (Prod.ext rfl (reflects.contains_required nonempty _))

theorem build_names (built : (build name phrases slots reserved).outcome = .ok intent) :
    intent.vars.map (·.name) =
      (firstMentions reserved phrases).map fun o => reserved.escape o.name := by
  have := congrArg (List.map Prod.fst) (build_vars built)
  rw [List.map_map, List.map_map] at this
  exact this

theorem build_names_nodup (built : (build name phrases slots reserved).outcome = .ok intent) :
    (intent.vars.map (·.name)).Nodup := by
  rw [build_names built]
  exact nodup_map_firsts _ _

/-- A variable comes from an occurrence that gave it its type. -/
theorem exists_mention (built : (build name phrases slots reserved).outcome = .ok intent)
    {v : Variable} (member : v ∈ intent.vars) :
    ∃ o ∈ firstMentions reserved phrases, reserved.escape o.name = v.name ∧
      ValueType.resolve? slots (reserved.escape o.tag) = some v.type ∧
      (v.required = true ↔ RequiredBy reserved phrases v.name) := by
  have listed : (v.name, some v.type, v.required) ∈
      intent.vars.map (fun v => (v.name, some v.type, v.required)) := List.mem_map_of_mem member
  rw [build_vars built] at listed
  obtain ⟨o, mentioned, same⟩ := List.mem_map.mp listed
  simp only [Prod.mk.injEq] at same
  obtain ⟨named, typed, required⟩ := same
  exact ⟨o, mentioned, named, typed, by rw [← required, named, decide_eq_true_iff]⟩

theorem exists_phrase (built : (build name phrases slots reserved).outcome = .ok intent)
    {v : Variable} (member : v ∈ intent.vars) :
    ∃ phrase ∈ phrases, ∃ o ∈ Phrase.occurrences phrase, reserved.escape o.name = v.name := by
  have listed : v.name ∈ intent.vars.map (·.name) := List.mem_map_of_mem member
  rw [build_names built, firstMentions, mem_map_firsts] at listed
  obtain ⟨o, mentioned, same⟩ := List.mem_map.mp listed
  obtain ⟨phrase, given, read⟩ := List.mem_flatMap.mp mentioned
  exact ⟨phrase, given, o, read, same⟩

/-- **A built intent has the variables that its phrases mention**: one for each escaped name,
in the order of the first mentions, with the type of the first mention, required exactly if
every phrase has the name outside all groups. -/
theorem build_matches_mentions (built : (build name phrases slots reserved).outcome = .ok intent) :
    intent.name = name ∧
    intent.vars.map (fun v => (v.name, some v.type, v.required)) =
      (firstMentions reserved phrases).map (fun o =>
        (reserved.escape o.name, ValueType.resolve? slots (reserved.escape o.tag),
          decide (RequiredBy reserved phrases (reserved.escape o.name)))) ∧
    (intent.vars.map (·.name)).Nodup ∧
    ∀ v ∈ intent.vars, ∃ phrase ∈ phrases, ∃ o ∈ Phrase.occurrences phrase,
      reserved.escape o.name = v.name :=
  ⟨build_name built, build_vars built, build_names_nodup built,
    fun _ member => exists_phrase built member⟩

end Built

/-- Two spellings of one escaped name, an optional one, and a later mention of another type. -/
theorem build_matches_mentions_paint :
    let slots : List Slot := [⟨"Color", ["red"]⟩, ⟨"Size", ["big"]⟩]
    let phrases := ["paint $Color:true ($pv.Percent:level) now", "make it $Size:True [$Size:level"]
    let intent : Intent := ⟨"Paint", [⟨"True", .element 0, true⟩, ⟨"level", .integer, false⟩]⟩
    (build "Paint" phrases slots .kotlin).outcome = .ok intent ∧
    intent.vars.map (fun v => (v.name, some v.type, v.required)) =
      (firstMentions .kotlin phrases).map (fun o =>
        (ReservedWords.kotlin.escape o.name,
          ValueType.resolve? slots (ReservedWords.kotlin.escape o.tag),
          decide (RequiredBy .kotlin phrases (ReservedWords.kotlin.escape o.name)))) := by
  intro slots phrases intent
  have built : (build "Paint" phrases slots .kotlin).outcome = .ok intent := by decide +kernel
  exact ⟨built, (build_matches_mentions built).2.1⟩

end Intent

end VoiceGrammar
