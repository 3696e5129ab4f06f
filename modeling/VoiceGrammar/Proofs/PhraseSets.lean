/-
# Only the set of phrases decides what an intent has

Building walks through the phrases in order and remembers what it has seen, yet the
order and the repetition of phrases decide little. Whether a phrase can be read does not
depend on the phrases before it (`readPhrase_ok_iff`), so an intent builds exactly if
each of its phrases can be read (`build_ok_iff`). The names of the variables and which
of them are required are said by `mem_signature_iff` in terms of what phrases there are.
Types come from first mentions, which do depend on the order; where all mentions of a
name have one type (`OneTypeEach`) the first has it too, and the variables are the same
(`mem_vars_iff`).
-/
import VoiceGrammar.Proofs.IntentVariables

namespace VoiceGrammar.Intent

set_option autoImplicit false

/-! ## Which phrases can be read -/

/-- Reading the phrase ends without a fault, its escaped names differ, and its tags name types. -/
structure Setting.Reads (setting : Setting) (phrase : String) : Prop where
  faultless : ∀ error, Scan.Signal.fault error ∉ Phrase.signals phrase
  distinct : ((Phrase.occurrences phrase).map setting.nameOf).Nodup
  typed : ∀ o ∈ Phrase.occurrences phrase, ∃ type, setting.typeOf? o = some type

/-- The rest of a phrase is read if nothing in it is at fault, its names differ from each other and
from those before, and its tags name types. -/
theorem readSignals_ok_iff (setting : Setting) (phrase : String) (signals : List Scan.Signal)
    {draft : Draft} (apart : draft.names.Nodup) :
    (∃ final, (signals.foldlM (Draft.read setting phrase) draft).outcome = .ok final) ↔
      (∀ error, Scan.Signal.fault error ∉ signals) ∧
      (draft.names ++ (occurrencesIn signals).map setting.nameOf).Nodup ∧
      ∀ o ∈ occurrencesIn signals, ∃ type, setting.typeOf? o = some type := by
  induction signals generalizing draft with
  | nil =>
      refine ⟨fun _ => ⟨by simp, by simpa [occurrencesIn] using apart, by simp [occurrencesIn]⟩,
        fun _ => ⟨draft, rfl⟩⟩
  | cons signal signals ih =>
      simp only [List.foldlM_cons, Logged.bind_eq_ok]
      cases signal with
      | event event =>
          have same : occurrencesIn (.event event :: signals) = occurrencesIn signals := rfl
          rw [same]
          constructor
          · rintro ⟨final, middle, ⟨⟩, rest⟩
            obtain ⟨faultless, further⟩ := (ih apart).mp ⟨final, rest⟩
            exact ⟨by simpa using faultless, further⟩
          · rintro ⟨faultless, further⟩
            obtain ⟨final, rest⟩ := (ih apart).mpr ⟨by simpa using faultless, further⟩
            exact ⟨final, draft, rfl, rest⟩
      | fault error =>
          constructor
          · rintro ⟨final, middle, wrong, -⟩
            cases wrong
          · rintro ⟨faultless, -⟩
            exact absurd List.mem_cons_self (faultless error)
      | occurrence o =>
          have more : occurrencesIn (.occurrence o :: signals) = o :: occurrencesIn signals := rfl
          rw [more, List.map_cons, List.append_cons]
          constructor
          · rintro ⟨final, middle, added, rest⟩
            obtain ⟨fresh, type, typed, grown⟩ := Draft.add_eq_ok.mp added
            have names : middle.names = draft.names ++ [setting.nameOf o] := by rw [grown]
            have apart' : middle.names.Nodup := by
              rw [names, nodup_concat_iff]
              exact ⟨fresh, apart⟩
            obtain ⟨faultless, distinct, others⟩ := (ih apart').mp ⟨final, rest⟩
            rw [names] at distinct
            refine ⟨by simpa using faultless, distinct, ?_⟩
            rintro other (_ | ⟨_, later⟩)
            · exact ⟨type, typed⟩
            · exact others other later
          · rintro ⟨faultless, distinct, typed⟩
            obtain ⟨type, one⟩ := typed o List.mem_cons_self
            obtain ⟨fresh, -⟩ := nodup_concat_iff.mp distinct.of_append_left
            obtain ⟨next, added, names⟩ : ∃ next, (draft.add setting phrase o).outcome = .ok next ∧
                next.names = draft.names ++ [setting.nameOf o] :=
              ⟨_, Draft.add_eq_ok.mpr ⟨fresh, type, one, rfl⟩, rfl⟩
            rw [← names] at distinct
            obtain ⟨final, rest⟩ := (ih distinct.of_append_left).mpr ⟨by simpa using faultless,
              distinct, fun other later => typed other (List.mem_cons_of_mem _ later)⟩
            exact ⟨final, next, added, rest⟩

/-- What was found before does not decide whether a phrase can be read. -/
theorem readPhrase_ok_iff (setting : Setting) (vars : List Variable) (phrase : String) :
    (∃ draft, (readPhrase setting vars phrase).outcome = .ok draft) ↔ setting.Reads phrase := by
  have reading := @readSignals_ok_iff setting phrase (Phrase.signals phrase) ⟨vars, [], []⟩
    List.nodup_nil
  exact reading.trans ⟨fun ⟨faultless, distinct, typed⟩ => ⟨faultless, distinct, typed⟩,
    fun reads => ⟨reads.faultless, reads.distinct, reads.typed⟩⟩

section Built

variable {name : String} {phrases others : List String} {slots : List Slot}
  {reserved : ReservedWords} {intent twin : Intent}

/-- An intent builds exactly if each of its phrases can be read. -/
theorem build_ok_iff :
    (∃ intent, (build name phrases slots reserved).outcome = .ok intent) ↔
      ∀ phrase ∈ phrases, Setting.Reads ⟨name, slots, reserved⟩ phrase := by
  have steps : ∀ (progress : Progress) (phrase : String),
      (∃ next, (progress.read ⟨name, slots, reserved⟩ phrase).outcome = .ok next) ↔
        Setting.Reads ⟨name, slots, reserved⟩ phrase := by
    intro progress phrase
    rw [← readPhrase_ok_iff _ progress.vars]
    constructor
    · rintro ⟨next, read⟩
      obtain ⟨draft, inner, -⟩ := Logged.bind_eq_ok.mp read
      exact ⟨draft, inner⟩
    · rintro ⟨draft, inner⟩
      exact ⟨_, Logged.bind_eq_ok.mpr ⟨draft, inner, rfl⟩⟩
  rw [← Logged.exists_foldlM_eq_ok_iff steps phrases ⟨[], none⟩]
  constructor
  · rintro ⟨intent, built⟩
    obtain ⟨progress, read, -⟩ := Logged.bind_eq_ok.mp built
    exact ⟨progress, read⟩
  · rintro ⟨progress, read⟩
    exact ⟨_, Logged.bind_eq_ok.mpr ⟨progress, read, rfl⟩⟩

/-! ## What the phrases say of the variables -/

/-- Some phrase mentions the name. -/
def MentionedBy (reserved : ReservedWords) (phrases : List String) (name : String) : Prop :=
  ∃ phrase ∈ phrases, ∃ o ∈ Phrase.occurrences phrase, reserved.escape o.name = name

/-- Mentions of one escaped name have one type. -/
def OneTypeEach (slots : List Slot) (reserved : ReservedWords) (phrases : List String) : Prop :=
  ∀ o ∈ phrases.flatMap Phrase.occurrences, ∀ o' ∈ phrases.flatMap Phrase.occurrences,
    reserved.escape o.name = reserved.escape o'.name →
      ValueType.resolve? slots (reserved.escape o.tag) =
        ValueType.resolve? slots (reserved.escape o'.tag)

theorem mentionedBy_congr (same : ∀ phrase, phrase ∈ phrases ↔ phrase ∈ others) (key : String) :
    MentionedBy reserved phrases key ↔ MentionedBy reserved others key := by
  simp only [MentionedBy, same]

theorem requiredBy_congr (same : ∀ phrase, phrase ∈ phrases ↔ phrase ∈ others) (key : String) :
    RequiredBy reserved phrases key ↔ RequiredBy reserved others key := by
  simp only [RequiredBy, same]

theorem mem_names_iff (built : (build name phrases slots reserved).outcome = .ok intent)
    (key : String) : key ∈ intent.vars.map (·.name) ↔ MentionedBy reserved phrases key := by
  rw [build_names built, firstMentions, mem_map_firsts]
  simp only [List.mem_map, List.mem_flatMap, MentionedBy]
  constructor
  · rintro ⟨o, ⟨phrase, given, read⟩, same⟩
    exact ⟨phrase, given, o, read, same⟩
  · rintro ⟨phrase, given, o, read, same⟩
    exact ⟨o, ⟨phrase, given, read⟩, same⟩

/-- Names and requiredness of the variables, as a set. -/
theorem mem_signature_iff (built : (build name phrases slots reserved).outcome = .ok intent)
    (key : String) (required : Bool) :
    (key, required) ∈ intent.vars.map (fun v => (v.name, v.required)) ↔
      MentionedBy reserved phrases key ∧ (required = true ↔ RequiredBy reserved phrases key) := by
  rw [← mem_names_iff built]
  constructor
  · intro member
    obtain ⟨v, carried, same⟩ := List.mem_map.mp member
    cases same
    obtain ⟨-, -, -, -, byAll⟩ := exists_mention built carried
    exact ⟨List.mem_map_of_mem carried, byAll⟩
  · rintro ⟨member, byAll⟩
    obtain ⟨v, carried, rfl⟩ := List.mem_map.mp member
    obtain ⟨-, -, -, -, byAll'⟩ := exists_mention built carried
    have same : v.required = required := Bool.eq_iff_iff.mpr (byAll'.trans byAll.symm)
    exact List.mem_map.mpr ⟨v, carried, by rw [same]⟩

/-- The variables as a set, where no name is mentioned with two types. -/
theorem mem_vars_iff (built : (build name phrases slots reserved).outcome = .ok intent)
    (one : OneTypeEach slots reserved phrases) (v : Variable) :
    v ∈ intent.vars ↔
      (∃ o ∈ phrases.flatMap Phrase.occurrences, reserved.escape o.name = v.name ∧
        ValueType.resolve? slots (reserved.escape o.tag) = some v.type) ∧
      (v.required = true ↔ RequiredBy reserved phrases v.name) := by
  constructor
  · intro carried
    obtain ⟨o, first, named, typed, byAll⟩ := exists_mention built carried
    exact ⟨⟨o, List.mem_of_find?_eq_some (find?_of_mem_firsts _ first), named, typed⟩, byAll⟩
  · rintro ⟨⟨o, read, named, typed⟩, byAll⟩
    obtain ⟨phrase, given, inPhrase⟩ := List.mem_flatMap.mp read
    have mentioned := (mem_signature_iff built v.name v.required).mpr
      ⟨⟨phrase, given, o, inPhrase, named⟩, byAll⟩
    obtain ⟨w, carried, same⟩ := List.mem_map.mp mentioned
    obtain ⟨sameName, sameRequired⟩ := Prod.mk.inj same
    -- the variable of that name was typed by another mention, which has the same type
    obtain ⟨o', first, named', typed', -⟩ := exists_mention built carried
    have read' := List.mem_of_find?_eq_some (find?_of_mem_firsts _ first)
    have sameType : some v.type = some w.type := by
      rw [← typed, ← typed']
      exact one o read o' read' (named.trans (sameName.symm.trans named'.symm))
    have equal : v = w := by
      cases v
      cases w
      simp_all
    exact equal ▸ carried

theorem oneTypeEach_congr (same : ∀ phrase, phrase ∈ phrases ↔ phrase ∈ others) :
    OneTypeEach slots reserved phrases ↔ OneTypeEach slots reserved others := by
  simp only [OneTypeEach, List.mem_flatMap, same]

/-- **Only the set of phrases matters.** Two lists of the same phrases, in any order and with any
repetitions, both build or both fail. If they build, the variables have the same names, and the
same of them are required; and if no name is mentioned with two types, they are the same
variables, up to their order. -/
theorem build_depends_on_phrase_set (same : ∀ phrase, phrase ∈ phrases ↔ phrase ∈ others) :
    ((∃ intent, (build name phrases slots reserved).outcome = .ok intent) ↔
      ∃ twin, (build name others slots reserved).outcome = .ok twin) ∧
    ∀ intent twin, (build name phrases slots reserved).outcome = .ok intent →
      (build name others slots reserved).outcome = .ok twin →
      (intent.vars.map fun v => (v.name, v.required)).Perm
        (twin.vars.map fun v => (v.name, v.required)) ∧
      (OneTypeEach slots reserved phrases → intent.vars.Perm twin.vars) := by
  refine ⟨by simp only [build_ok_iff, same], fun intent twin built built' => ⟨?_, fun one => ?_⟩⟩
  · have distinct : ∀ {vars : List Variable}, (vars.map (·.name)).Nodup →
        (vars.map fun v => (v.name, v.required)).Nodup := by
      intro vars names
      apply List.Nodup.of_map Prod.fst
      rw [List.map_map]
      exact names
    rw [List.perm_ext_iff_of_nodup (distinct (build_names_nodup built))
      (distinct (build_names_nodup built'))]
    rintro ⟨key, required⟩
    rw [mem_signature_iff built, mem_signature_iff built', mentionedBy_congr same,
      requiredBy_congr same]
  · rw [List.perm_ext_iff_of_nodup (build_names_nodup built).of_map
      (build_names_nodup built').of_map]
    intro v
    rw [mem_vars_iff built one, mem_vars_iff built' ((oneTypeEach_congr same).mp one),
      requiredBy_congr same]
    simp only [List.mem_flatMap, same]

end Built

/-- Two spellings of one escaped name, one phrase given twice. -/
theorem build_depends_on_phrase_set_paint :
    let slots : List Slot := [⟨"Color", ["red"]⟩]
    let plain := "paint it $Color:true"
    let dimmed := "to $pv.Percent:level in $Color:True"
    let tone : Variable := ⟨"True", .element 0, true⟩
    let level : Variable := ⟨"level", .integer, false⟩
    (∀ phrase, phrase ∈ [plain, dimmed] ↔ phrase ∈ [dimmed, plain, dimmed]) ∧
    (build "Paint" [plain, dimmed] slots .rust).outcome = .ok ⟨"Paint", [tone, level]⟩ ∧
    (build "Paint" [dimmed, plain, dimmed] slots .rust).outcome = .ok ⟨"Paint", [level, tone]⟩ ∧
    OneTypeEach slots .rust [plain, dimmed] ∧ [tone, level].Perm [level, tone] := by
  intro slots plain dimmed tone level
  have same : ∀ phrase, phrase ∈ [plain, dimmed] ↔ phrase ∈ [dimmed, plain, dimmed] := by
    intro phrase
    simp only [List.mem_cons, List.not_mem_nil, or_false]
    tauto
  have built : (build "Paint" [plain, dimmed] slots .rust).outcome = .ok ⟨"Paint", [tone, level]⟩ := by
    decide +kernel
  have built' : (build "Paint" [dimmed, plain, dimmed] slots .rust).outcome =
      .ok ⟨"Paint", [level, tone]⟩ := by decide +kernel
  have one : OneTypeEach slots .rust [plain, dimmed] := by
    unfold OneTypeEach
    decide +kernel
  exact ⟨same, built, built', one, ((build_depends_on_phrase_set same).2 _ _ built built').2 one⟩

/-- A name that is mentioned with two types has that of the phrase that comes first. -/
example : (build "Pick" ["a $A:x", "b $B:x"] [⟨"A", []⟩, ⟨"B", []⟩] .rust).outcome =
      .ok ⟨"Pick", [⟨"x", .element 0, true⟩]⟩ ∧
    (build "Pick" ["b $B:x", "a $A:x"] [⟨"A", []⟩, ⟨"B", []⟩] .rust).outcome =
      .ok ⟨"Pick", [⟨"x", .element 1, true⟩]⟩ := by
  decide +kernel

end VoiceGrammar.Intent
