/-
# Requiredness is sound and tight

A variable is required if every phrase of its intent has it outside all groups. Two
things make that the right rule for decoding. It is sound: whoever says one phrase of
the intent fills every required variable, so decoding never misses one. It is tight:
a variable that is not required is one that some phrase leaves out, and what that
phrase fills decodes without it.
-/
import VoiceGrammar.Proofs.Compiled
import VoiceGrammar.Proofs.DecodedValues
import VoiceGrammar.Target

namespace VoiceGrammar

set_option autoImplicit false

/-- The names, as escaped, that a phrase has outside all groups. -/
def Phrase.plainNames (reserved : ReservedWords) (phrase : String) : List String :=
  ((Phrase.occurrences phrase).filter (!·.optional)).map fun o => reserved.escape o.name

theorem Phrase.mem_plainNames {reserved : ReservedWords} {phrase name : String} :
    name ∈ plainNames reserved phrase ↔
      ∃ o ∈ Phrase.occurrences phrase, reserved.escape o.name = name ∧ o.optional = false := by
  simp only [plainNames, List.mem_map, List.mem_filter, Bool.not_eq_true']
  exact ⟨fun ⟨o, ⟨member, plain⟩, same⟩ => ⟨o, member, same, plain⟩,
    fun ⟨o, member, same, plain⟩ => ⟨o, ⟨member, plain⟩, same⟩⟩

theorem Intent.requiredBy_iff {reserved : ReservedWords} {phrases : List String} {name : String} :
    RequiredBy reserved phrases name ↔
      ∀ phrase ∈ phrases, name ∈ Phrase.plainNames reserved phrase := by
  simp only [RequiredBy, Phrase.mem_plainNames]

namespace Model

/-- Every text that is given for a variable of the intent is one of its type. -/
def AcceptsAll (model : Model) (intent : Intent) (filling : Filling) : Prop :=
  ∀ v ∈ intent.vars, ∀ raw, filling v.name = some raw → model.Accepts v.type raw

variable {model : Model} {filling : Filling} {name : String} {intent : Intent}

theorem decode_eq_error {error : DecodeError} (found : model.intent? name = some intent)
    (failed : model.decode name true filling = .error error) :
    ∃ v ∈ intent.vars, model.decodeVariable filling v = .error error := by
  unfold decode at failed
  rw [if_pos rfl, found] at failed
  dsimp only at failed
  cases decoded : intent.vars.mapM (model.decodeVariable filling) with
  | ok vars => simp [decoded, Except.map] at failed
  | error other =>
      obtain rfl : other = error := by simpa [decoded, Except.map] using failed
      exact exists_of_mapM_except_eq_error decoded

theorem decode_eq_understood {vars : List DecodedVariable} (found : model.intent? name = some intent)
    (decoded : List.Forall₂ (fun v d => model.decodeVariable filling v = .ok d) intent.vars vars) :
    model.decode name true filling = .ok (.understood intent.name vars) := by
  unfold decode
  rw [if_pos rfl, found]
  dsimp only
  rw [mapM_except_eq_ok.mpr decoded]
  rfl

/-- How a variable shows in the result: under its name, and empty if it has no text. -/
def Shows (filling : Filling) (v : Variable) (d : DecodedVariable) : Prop :=
  d.name = v.name ∧ (filling v.name = none → d.value = none)

/-- A variable with an accepted text, or an optional one without a text, decodes. -/
theorem decodeVariable_ok {v : Variable} (accepted : ∀ raw, filling v.name = some raw →
      model.Accepts v.type raw)
    (present : v.required = true → (filling v.name).isSome) :
    ∃ d, model.decodeVariable filling v = .ok d ∧ Shows filling v d := by
  cases filled : filling v.name with
  | none =>
      have optional : v.required = false := by
        cases required : v.required with
        | false => rfl
        | true => simpa [filled] using present required
      exact ⟨⟨v.name, none⟩, decodeVariable_of_none filled optional, rfl, fun _ => rfl⟩
  | some raw =>
      obtain ⟨value, decoded⟩ := (@decodeValue_ok_iff model v.name v.type raw).mpr
        (accepted raw filled)
      refine ⟨⟨v.name, some value⟩, ?_, rfl, fun empty => ?_⟩
      · simp [decodeVariable, filled, decoded, Except.map]
      · rw [filled] at empty
        cases empty

/-- If nothing is missing and all texts are accepted, decoding succeeds. -/
theorem decode_understood (found : model.intent? name = some intent)
    (accepted : model.AcceptsAll intent filling)
    (present : ∀ v ∈ intent.vars, v.required = true → (filling v.name).isSome) :
    ∃ vars, model.decode name true filling = .ok (.understood intent.name vars) ∧
      List.Forall₂ (Shows filling) intent.vars vars := by
  obtain ⟨vars, all⟩ := exists_forall₂ fun v carried =>
    decodeVariable_ok (accepted v carried) (present v carried)
  exact ⟨vars, decode_eq_understood found (all.imp fun _ _ both => both.1),
    all.imp fun _ _ both => both.2⟩

end Model

namespace Grammar

variable {grammar : Grammar} {reserved : ReservedWords} {model : Model} {name : String}
  {phrases : List String} {intent : Intent}

/-- One phrase fills every required variable. -/
theorem required_present
    (built : (Intent.build name phrases model.slots reserved).outcome = .ok intent)
    {phrase : String} (given : phrase ∈ phrases) (filling : Filling)
    (filled : ∀ key ∈ Phrase.plainNames reserved phrase, (filling key).isSome) :
    ∀ v ∈ intent.vars, v.required = true → (filling v.name).isSome := by
  intro v carried required
  obtain ⟨-, -, -, -, by_all⟩ := Intent.exists_mention built carried
  exact filled v.name (Intent.requiredBy_iff.mp (by_all.mp required) phrase given)

/-- Some phrase leaves out a variable that is not required. -/
theorem exists_phrase_without
    (built : (Intent.build name phrases model.slots reserved).outcome = .ok intent)
    {v : Variable} (carried : v ∈ intent.vars) (optional : v.required = false) :
    ∃ phrase ∈ phrases, v.name ∉ Phrase.plainNames reserved phrase := by
  obtain ⟨-, -, -, -, by_all⟩ := Intent.exists_mention built carried
  have some_without : ¬ Intent.RequiredBy reserved phrases v.name := by
    rw [← by_all, optional]
    exact Bool.false_ne_true
  rw [Intent.requiredBy_iff] at some_without
  simpa using some_without

/-- **Requiredness is sound and tight.** What one phrase of an intent fills misses no required
variable, and decodes if its texts are accepted. A variable that is not required is left out by
some phrase, and what that phrase fills decodes with the variable empty. -/
theorem requiredness_sound_tight {target : Target}
    (compiled : (grammar.compile target.reserved).outcome = .ok model)
    (declared : grammar.expressions.lookup name = some phrases) :
    ∃ intent, model.intent? name = some intent ∧
      (∀ phrase ∈ phrases, ∀ filling : Filling,
        (∀ o ∈ Phrase.occurrences phrase, o.optional = false →
          (filling (target.reserved.escape o.name)).isSome) →
        (∀ missing, model.decode name true filling ≠ .error (.missingVariable missing)) ∧
        (model.AcceptsAll intent filling →
          ∃ vars, model.decode name true filling = .ok (.understood name vars))) ∧
      ∀ v ∈ intent.vars, v.required = false → ∃ phrase ∈ phrases,
        (∀ o ∈ Phrase.occurrences phrase, o.optional = false →
          target.reserved.escape o.name ≠ v.name) ∧
        ∀ filling : Filling,
          (∀ key, (filling key).isSome ↔ ∃ o ∈ Phrase.occurrences phrase,
            target.reserved.escape o.name = key ∧ o.optional = false) →
          model.AcceptsAll intent filling →
          ∃ vars, model.decode name true filling = .ok (.understood name vars) ∧
            ⟨v.name, none⟩ ∈ vars ∧ ∀ d ∈ vars, d.name = v.name → d.value = none := by
  obtain ⟨intent, found, built⟩ := intent?_of_lookup compiled declared
  have named := Intent.build_name built
  refine ⟨intent, found, fun phrase given filling filled => ?_, fun v carried optional => ?_⟩
  · have present := required_present built given filling fun key member => by
      obtain ⟨o, read, rfl, plain⟩ := Phrase.mem_plainNames.mp member
      exact filled o read plain
    refine ⟨fun missing failed => ?_, fun accepted => ?_⟩
    · obtain ⟨v, carried, error⟩ := Model.decode_eq_error found failed
      obtain ⟨empty, required, -⟩ := Model.decodeVariable_missing.mp error
      simpa [empty] using present v carried required
    · obtain ⟨vars, decoded, -⟩ := Model.decode_understood found accepted present
      exact ⟨vars, named ▸ decoded⟩
  · obtain ⟨phrase, given, absent⟩ := exists_phrase_without built carried optional
    refine ⟨phrase, given, fun o read plain same => absent (Phrase.mem_plainNames.mpr
      ⟨o, read, same, plain⟩), fun filling filled accepted => ?_⟩
    have present := required_present built given filling fun key member =>
      (filled key).mpr (Phrase.mem_plainNames.mp member)
    obtain ⟨vars, decoded, shown⟩ := Model.decode_understood found accepted present
    have empty : filling v.name = none := by
      rw [← Option.not_isSome_iff_eq_none, filled]
      exact mt Phrase.mem_plainNames.mpr absent
    refine ⟨vars, named ▸ decoded, ?_, fun d member same => ?_⟩
    · obtain ⟨d, member, dName, dValue⟩ := exists_of_forall₂_left shown carried
      cases d
      cases dName
      cases dValue empty
      exact member
    · obtain ⟨w, -, wName, wValue⟩ := exists_of_forall₂_right shown member
      exact wValue (by rw [← wName, same, empty])

/-- An escaped name, optional variables in groups of both kinds, and a second declaration that
does not count. -/
theorem requiredness_sound_tight_paint :
    let paint := ["paint $Color:match ($pv.Percent:level)", "in $Color:match [$pv.Alphabetic:mark"]
    let grammar : Grammar := ⟨[("Color", ["red", "as"])], [("Paint", paint), ("Paint", ["stop"])]⟩
    let vars : List Variable :=
      [⟨"Match", .element 0, true⟩, ⟨"level", .integer, false⟩, ⟨"mark", .char, false⟩]
    let model : Model := ⟨[⟨"Paint", vars⟩, ⟨"Paint", []⟩], [⟨"Color", ["red", "As"]⟩]⟩
    (grammar.compile Target.rust.reserved).outcome = .ok model ∧
    grammar.expressions.lookup "Paint" = some paint ∧
    ∀ filling : Filling, (filling "Match").isSome →
      ∀ missing, model.decode "Paint" true filling ≠ .error (.missingVariable missing) := by
  intro paint grammar vars model
  have compiled : (grammar.compile Target.rust.reserved).outcome = .ok model := by decide +kernel
  have declared : grammar.expressions.lookup "Paint" = some paint := by decide +kernel
  refine ⟨compiled, declared, fun filling filled => ?_⟩
  obtain ⟨_, -, sound, -⟩ := requiredness_sound_tight compiled declared
  have only : ∀ o ∈ Phrase.occurrences "paint $Color:match ($pv.Percent:level)",
      o.optional = false → Target.rust.reserved.escape o.name = "Match" := by decide +kernel
  exact (sound _ List.mem_cons_self filling fun o read plain => only o read plain ▸ filled).1

end Grammar

end VoiceGrammar
