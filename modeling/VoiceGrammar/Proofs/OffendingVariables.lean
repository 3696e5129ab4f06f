/-
# The first variable that does not fit decides

`Model.Offends` says what can be wrong with a variable under a filling and which error
stands for it; `Model.Holds` says what a variable holds in the result otherwise. Both
speak of texts, numerals and elements and not of how decoding reads them.

Decoding a variable gives the error for which the variable offends
(`decodeVariable_eq_error_iff`) or the value that it holds (`decodeVariable_eq_ok_iff`).
So decoding an inference reports the first of the intent's variables that offends
(`decodeVariables_reports`), and a slot that is not there counts only where a text has
to be looked up in it.
-/
import VoiceGrammar.Proofs.DecodedValues
import VoiceGrammar.Proofs.FirstFault

namespace VoiceGrammar.Model

set_option autoImplicit false

/-- What is wrong with a variable. -/
inductive Offends (model : Model) (filling : Filling) (v : Variable) : DecodeError → Prop where
  | missing (absent : filling v.name = none) (required : v.required = true) :
      Offends model filling v (.missingVariable v.name)
  | char {raw : String} (present : filling v.name = some raw) (typed : v.type = .char)
      (wrong : raw.length ≠ 1) : Offends model filling v (.invalidChar v.name raw)
  | integer {raw : String} (present : filling v.name = some raw) (typed : v.type = .integer)
      (wrong : ∀ value, ¬ Text.IsWord raw value) :
      Offends model filling v (.invalidInteger v.name raw)
  | element {raw : String} {position : Nat} {slot : Slot} (present : filling v.name = some raw)
      (typed : v.type = .element position) (found : model.slots[position]? = some slot)
      (wrong : raw ∉ slot.elements) :
      Offends model filling v (.invalidElement slot.name raw v.name)
  /-- Without a text nothing is looked up, and the slot is not missed. -/
  | dangling {raw : String} {position : Nat} (present : filling v.name = some raw)
      (typed : v.type = .element position) (outside : model.slots.length ≤ position) :
      Offends model filling v (.danglingSlot position)

/-- What a variable that does not offend holds in the result. -/
inductive Holds (model : Model) (filling : Filling) (v : Variable) : Option Value → Prop where
  | absent (absent : filling v.name = none) (optional : v.required = false) :
      Holds model filling v none
  | char {raw : String} {c : Char} (present : filling v.name = some raw) (typed : v.type = .char)
      (single : raw.toList = [c]) : Holds model filling v (some (.char c))
  | integer {raw : String} {value : Int} (present : filling v.name = some raw)
      (typed : v.type = .integer) (word : Text.IsWord raw value) :
      Holds model filling v (some (.integer value))
  | element {raw : String} {position index : Nat} {slot : Slot}
      (present : filling v.name = some raw) (typed : v.type = .element position)
      (found : model.slots[position]? = some slot) (listed : slot.elements[index]? = some raw)
      (first : ∀ earlier < index, slot.elements[earlier]? ≠ some raw) :
      Holds model filling v (some (.element slot.name raw index))

variable {model : Model} {filling : Filling} {v : Variable}

/-! ## One variable -/

theorem offends_of_decodeValue {raw : String} {error : DecodeError}
    (present : filling v.name = some raw)
    (failed : model.decodeValue v.name v.type raw = .error error) :
    model.Offends filling v error := by
  cases typed : v.type with
  | char =>
      simp only [typed, decodeValue] at failed
      split at failed
      · cases failed
      · rename_i long
        cases failed
        refine .char present typed fun one => ?_
        obtain ⟨c, single⟩ := List.length_eq_one_iff.mp (String.length_toList.trans one)
        exact long c single
  | integer =>
      simp only [typed, decodeValue] at failed
      split at failed
      · cases failed
      · rename_i unread
        cases failed
        refine .integer present typed fun value word => ?_
        rw [Text.word?_eq_some_iff.mpr word] at unread
        cases unread
  | element position =>
      simp only [typed, decodeValue] at failed
      split at failed
      · rename_i lost
        cases failed
        exact .dangling present typed (List.getElem?_eq_none_iff.mp lost)
      · rename_i slot found
        split at failed
        · cases failed
        · rename_i unlisted
          cases failed
          refine .element present typed found fun listed => ?_
          simpa [unlisted] using Slot.position?_isSome_iff.mpr listed

theorem Offends.decodeVariable {error : DecodeError} (offends : model.Offends filling v error) :
    model.decodeVariable filling v = .error error := by
  rw [decodeVariable_eq_error]
  cases offends with
  | missing absent required => exact .inr ⟨absent, required, rfl⟩
  | @char raw present typed wrong =>
      refine .inl ⟨raw, present, ?_⟩
      rw [typed, decodeValue]
      split
      · rename_i c single
        exact absurd (by rw [← String.length_toList, single]; rfl) wrong
      · rfl
  | @integer raw present typed wrong =>
      refine .inl ⟨raw, present, ?_⟩
      rw [typed, decodeValue]
      split
      · rename_i value read
        exact absurd (Text.word?_eq_some_iff.mp read) (wrong value)
      · rfl
  | @element raw position slot present typed found wrong =>
      refine .inl ⟨raw, present, ?_⟩
      have unlisted : slot.position? raw = none := by
        rw [← Option.not_isSome_iff_eq_none]
        exact mt Slot.position?_isSome_iff.mp wrong
      simp only [typed, decodeValue, slot?, found, unlisted]
  | @dangling raw position present typed outside =>
      refine .inl ⟨raw, present, ?_⟩
      have lost : model.slots[position]? = none := List.getElem?_eq_none outside
      simp only [typed, decodeValue, slot?, lost]

/-- **A variable fails exactly if it offends**, and with that error. -/
theorem decodeVariable_eq_error_iff {error : DecodeError} :
    model.decodeVariable filling v = .error error ↔ model.Offends filling v error := by
  refine ⟨fun failed => ?_, Offends.decodeVariable⟩
  rcases decodeVariable_eq_error.mp failed with ⟨raw, present, wrong⟩ | ⟨absent, required, rfl⟩
  · exact offends_of_decodeValue present wrong
  · exact .missing absent required

theorem Offends.unique {first second : DecodeError} (one : model.Offends filling v first)
    (other : model.Offends filling v second) : first = second :=
  Except.error.inj (one.decodeVariable.symm.trans other.decodeVariable)

theorem holds_of_decodeValue {raw : String} {value : Value} (present : filling v.name = some raw)
    (decoded : model.decodeValue v.name v.type raw = .ok value) :
    model.Holds filling v (some value) := by
  cases typed : v.type with
  | char =>
      simp only [typed, decodeValue] at decoded
      split at decoded
      · rename_i c single
        cases decoded
        exact .char present typed single
      · cases decoded
  | integer =>
      simp only [typed, decodeValue] at decoded
      split at decoded
      · rename_i value read
        cases decoded
        exact .integer present typed (Text.word?_eq_some_iff.mp read)
      · cases decoded
  | element position =>
      simp only [typed, decodeValue] at decoded
      split at decoded
      · cases decoded
      · rename_i slot found
        split at decoded
        · rename_i index listed
          cases decoded
          obtain ⟨here, first⟩ := Slot.position?_eq_some_iff.mp listed
          exact .element present typed found here first
        · cases decoded

theorem Holds.decodeVariable {value : Option Value} (holds : model.Holds filling v value) :
    model.decodeVariable filling v = .ok ⟨v.name, value⟩ := by
  cases holds with
  | absent absent optional => exact decodeVariable_of_none absent optional
  | char present typed single =>
      simp only [Model.decodeVariable, present, typed, decodeValue, single, Except.map]
  | integer present typed word =>
      simp only [Model.decodeVariable, present, typed, decodeValue,
        Text.word?_eq_some_iff.mpr word, Except.map]
  | element present typed found listed first =>
      have place := Slot.position?_eq_some_iff.mpr ⟨listed, first⟩
      simp only [Model.decodeVariable, present, typed, decodeValue, slot?, found, place, Except.map]

/-- **A variable decodes to what it holds.** -/
theorem decodeVariable_eq_ok_iff {d : DecodedVariable} :
    model.decodeVariable filling v = .ok d ↔ d.name = v.name ∧ model.Holds filling v d.value := by
  constructor
  · intro decoded
    unfold Model.decodeVariable at decoded
    cases filled : filling v.name with
    | none =>
        rw [filled] at decoded
        cases required : v.required with
        | true => simp [required] at decoded
        | false =>
            obtain rfl : ⟨v.name, none⟩ = d := by simpa [required] using decoded
            exact ⟨rfl, .absent filled required⟩
    | some raw =>
        rw [filled] at decoded
        cases found : model.decodeValue v.name v.type raw with
        | error error => simp [found, Except.map] at decoded
        | ok value =>
            obtain rfl : ⟨v.name, some value⟩ = d := by simpa [found, Except.map] using decoded
            exact ⟨rfl, holds_of_decodeValue filled found⟩
  · rintro ⟨named, holds⟩
    rw [holds.decodeVariable, ← named]

/-! ## The variables of an intent -/

theorem decodeVariables_reports (model : Model) (filling : Filling) (vars : List Variable) :
    Reports (model.Offends filling) vars (vars.mapM (model.decodeVariable filling)) := by
  have each : ∀ v, Reports (model.Offends filling) [v] (model.decodeVariable filling v) := by
    intro v
    cases decoded : model.decodeVariable filling v with
    | error error => exact .here (decodeVariable_eq_error_iff.mp decoded)
    | ok d =>
        intro place member error offends
        rw [List.mem_singleton.mp member] at offends
        cases decoded.symm.trans offends.decodeVariable
  have whole := Reports.mapM each vars
  rwa [List.flatMap_singleton'] at whole

variable {name : String} {intent : Intent}

theorem decode_of_intent? (found : model.intent? name = some intent) (filling : Filling) :
    model.decode name true filling =
      (intent.vars.mapM (model.decodeVariable filling)).map (.understood intent.name) := by
  simp only [decode, found, if_true]

theorem decode_eq_error_iff (found : model.intent? name = some intent) {error : DecodeError} :
    model.decode name true filling = .error error ↔
      FirstFault (model.Offends filling) intent.vars error := by
  have unique : ∀ v first second, model.Offends filling v first → model.Offends filling v second →
      first = second := fun _ _ _ => Offends.unique
  rw [decode_of_intent? found,
    ← (decodeVariables_reports model filling intent.vars).error_iff unique]
  cases intent.vars.mapM (model.decodeVariable filling) <;> simp [Except.map]

theorem decode_eq_ok_iff (found : model.intent? name = some intent) {decoded : Decoded} :
    model.decode name true filling = .ok decoded ↔
      ∃ vars, decoded = .understood intent.name vars ∧
        List.Forall₂ (fun v d => d.name = v.name ∧ model.Holds filling v d.value)
          intent.vars vars := by
  simp only [← decodeVariable_eq_ok_iff, ← mapM_except_eq_ok]
  rw [decode_of_intent? found]
  cases intent.vars.mapM (model.decodeVariable filling) <;> simp [Except.map, eq_comm]

/-- Decoding reads the texts of the intent's variables only. -/
theorem decode_congr_filling (found : model.intent? name = some intent) {other : Filling}
    (same : ∀ v ∈ intent.vars, other v.name = filling v.name) :
    model.decode name true other = model.decode name true filling := by
  have each : intent.vars.mapM (model.decodeVariable other) =
      intent.vars.mapM (model.decodeVariable filling) := by
    apply mapM_congr_mem
    intro v carried
    simp only [Model.decodeVariable, same v carried]
  rw [decode_of_intent? found, decode_of_intent? found, each]

theorem exists_decoded_iff (found : model.intent? name = some intent) :
    (∃ decoded, model.decode name true filling = .ok decoded) ↔
      ∀ v ∈ intent.vars, ∀ error, ¬ model.Offends filling v error := by
  rw [← (decodeVariables_reports model filling intent.vars).ok_iff, decode_of_intent? found]
  cases intent.vars.mapM (model.decodeVariable filling) <;> simp [Except.map]

theorem intent?_of_first {before after : List Intent}
    (intents : model.intents = before ++ intent :: after)
    (first : ∀ other ∈ before, other.name ≠ intent.name) :
    model.intent? intent.name = some intent := by
  rw [intent?, intents, List.find?_eq_some_iff_append]
  refine ⟨beq_self_eq_true _, before, after, rfl, fun other earlier => ?_⟩
  simpa using first other earlier

/-- **Decoding returns what the first offending variable dictates.** An inference that was not
understood decodes to just that, and a name that no intent has is reported. Otherwise the first
intent of that name counts: of its variables the first that offends gives the error; if none does,
every variable stands in the result, in order, with what it holds. Texts under other names change
nothing. -/
theorem decode_follows_first_offender (model : Model) (name : String) (filling : Filling) :
    model.decode name false filling = .ok .notUnderstood ∧
    ((∀ intent ∈ model.intents, intent.name ≠ name) →
      model.decode name true filling = .error (.unknownIntent name)) ∧
    ∀ before intent after, model.intents = before ++ intent :: after →
      (∀ other ∈ before, other.name ≠ intent.name) → intent.name = name →
      ((∃ decoded, model.decode name true filling = .ok decoded) ↔
        ∀ v ∈ intent.vars, ∀ error, ¬ model.Offends filling v error) ∧
      (∀ error, model.decode name true filling = .error error ↔
        FirstFault (model.Offends filling) intent.vars error) ∧
      (∀ decoded, model.decode name true filling = .ok decoded ↔
        ∃ vars, decoded = .understood name vars ∧
          List.Forall₂ (fun v d => d.name = v.name ∧ model.Holds filling v d.value)
            intent.vars vars) ∧
      ∀ other : Filling, (∀ v ∈ intent.vars, other v.name = filling v.name) →
        model.decode name true other = model.decode name true filling := by
  refine ⟨rfl, fun unnamed => ?_, ?_⟩
  · have none : model.intent? name = none := by
      rw [intent?, List.find?_eq_none]
      intro intent member
      simpa using unnamed intent member
    simp only [decode, none, if_true]
  · rintro before intent after intents first rfl
    have found := intent?_of_first intents first
    exact ⟨exists_decoded_iff found, fun _ => decode_eq_error_iff found,
      fun _ => decode_eq_ok_iff found, fun _ same => decode_congr_filling found same⟩

/-- A slot that is not there is missed only by a text, and only before another error. -/
example :
    let model : Model := ⟨[⟨"go", [⟨"n", .integer, true⟩, ⟨"to", .element 3, false⟩]⟩], []⟩
    model.decode "go" true (Filling.ofPairs [("n", "1")]) =
      .ok (.understood "go" [⟨"n", some (.integer 1)⟩, ⟨"to", none⟩]) ∧
    model.decode "go" true (Filling.ofPairs [("n", "1x"), ("to", "home")]) =
      .error (.invalidInteger "n" "1x") ∧
    model.decode "go" true (Filling.ofPairs [("n", "1"), ("to", "home")]) =
      .error (.danglingSlot 3) := by
  decide +kernel

end VoiceGrammar.Model
