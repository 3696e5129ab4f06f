/-
# Decoding gives back what was written

`Given` is what can be given for a variable: a character, a 64-bit integer, an element
of a slot. It is written as text, under the name of its variable, and among other
entries; decoding that reads it back.

Three things make it so. The decimal text of an integer is a numeral with its value
(`Text.isSigned_signedDecimal`), and the value fits a word because it is one. An element
decodes to its first position in the slot, however often the slot lists it
(`Slot.position?_of_first`). And the variables of a built intent have names of their
own, so that no entry covers another (`Intent.ofPairs_entries`).
-/
import VoiceGrammar.Proofs.Requiredness

namespace VoiceGrammar

set_option autoImplicit false

/-! ## Numerals -/

namespace Text

theorem isDigit_of_isDigit {c : Char} (digit : c.isDigit = true) : isDigit c = true := by
  simpa [isDigit, Char.isDigit, Char.le_def] using digit

theorem isNatural_toDigits (value : Nat) : IsNatural (Nat.toDigits 10 value) value := by
  refine ⟨Nat.toDigits_ne_nil, ?_, Nat.ofDigitChars_ten_toDigits⟩
  intro c member
  exact isDigit_of_isDigit (Nat.isDigit_of_mem_toDigits (by decide) (by decide) member)

/-- A decimal text is a numeral of its number. -/
theorem isSigned_signedDecimal (value : Int) : IsSigned (signedDecimal value).toList value := by
  unfold signedDecimal decimal
  have natural := isNatural_toDigits value.natAbs
  by_cases negative : value < 0
  · have text : ("-" ++ String.ofList (Nat.toDigits 10 value.natAbs)).toList =
        '-' :: Nat.toDigits 10 value.natAbs := by simp
    have magnitude : value = -(value.natAbs : Int) := by omega
    rw [if_pos negative, text]
    nth_rewrite 2 [magnitude]
    exact .minus natural
  · have magnitude : value = (value.natAbs : Int) := by omega
    rw [if_neg negative, String.toList_ofList]
    nth_rewrite 2 [magnitude]
    exact .plain natural

theorem isWord_signedDecimal (value : Int64) : IsWord (signedDecimal value.toInt) value.toInt :=
  ⟨isSigned_signedDecimal value.toInt, value.minValue_le_toInt, value.toInt_le⟩

end Text

/-! ## Single values -/

/-- The position of an element is that of its first occurrence. -/
theorem Slot.position?_of_first {slot : Slot} {text : String} {before after : List String}
    (listed : slot.elements = before ++ text :: after) (first : text ∉ before) :
    slot.position? text = some before.length := by
  have earlier : before.idxOf? text = none := List.idxOf?_eq_none_iff.mpr first
  rw [Slot.position?, listed, List.idxOf?, List.findIdx?_append]
  rw [List.idxOf?] at earlier
  simp [earlier, List.findIdx?_cons]

/-- What can be given for a variable. -/
inductive Given where
  | char (value : Char)
  | integer (value : Int64)
  | element (text : String)
  deriving DecidableEq

/-- How it is written. -/
def Given.text : Given → String
  | char value => String.singleton value
  | integer value => Text.signedDecimal value.toInt
  | element text => text

namespace Model

/-- What is given is a value of the type. -/
def HasType (model : Model) : ValueType → Given → Prop
  | .char, .char _ => True
  | .integer, .integer _ => True
  | .element position, .element text =>
    ∃ slot ∈ model.slot? position, text ∈ slot.elements
  | _, _ => False

/-- The value that is meant: for an element the slot's name, the element's text, and where the
slot lists it first. -/
inductive Means (model : Model) : ValueType → Given → Value → Prop where
  | char (value : Char) : Means model .char (.char value) (.char value)
  | integer (value : Int64) : Means model .integer (.integer value) (.integer value.toInt)
  | element {position : Nat} {slot : Slot} {before after : List String} {text : String}
      (found : model.slot? position = some slot)
      (listed : slot.elements = before ++ text :: after) (first : text ∉ before) :
      Means model (.element position) (.element text) (.element slot.name text before.length)

instance (model : Model) (type : ValueType) (given : Given) : Decidable (model.HasType type given) :=
  match type, given with
  | .char, .char _ => .isTrue trivial
  | .integer, .integer _ => .isTrue trivial
  | .element position, .element text =>
    inferInstanceAs (Decidable (∃ slot ∈ model.slot? position, text ∈ slot.elements))
  | .char, .integer _ | .char, .element _ | .integer, .char _ | .integer, .element _
  | .element _, .char _ | .element _, .integer _ => .isFalse id

variable {model : Model} {type : ValueType} {given : Given}

theorem HasType.exists_means (typed : model.HasType type given) :
    ∃ value, model.Means type given value := by
  cases type with
  | char =>
      cases given with
      | char value => exact ⟨_, .char value⟩
      | integer value => exact typed.elim
      | element text => exact typed.elim
  | integer =>
      cases given with
      | char value => exact typed.elim
      | integer value => exact ⟨_, .integer value⟩
      | element text => exact typed.elim
  | element position =>
      cases given with
      | char value => exact typed.elim
      | integer value => exact typed.elim
      | element text =>
          obtain ⟨slot, found, member⟩ := typed
          obtain ⟨before, after, listed, first⟩ := List.eq_append_cons_of_mem member
          exact ⟨_, .element found listed first⟩

theorem Means.decodeValue {value : Value} (means : model.Means type given value) (name : String) :
    model.decodeValue name type given.text = .ok value := by
  cases means with
  | char value => simp [Model.decodeValue, Given.text]
  | integer value =>
      simp only [Model.decodeValue, Given.text,
        Text.word?_eq_some_iff.mpr (Text.isWord_signedDecimal value)]
  | element found listed first =>
      simp only [Model.decodeValue, Given.text, found, Slot.position?_of_first listed first]

end Model

/-! ## Entries -/

namespace Intent

/-- The texts of what is given, under the names of the variables. -/
def entries (intent : Intent) (assignment : Variable → Option Given) : List (String × String) :=
  intent.vars.filterMap fun v => (assignment v).map fun given => (v.name, given.text)

variable {intent : Intent} {assignment : Variable → Option Given}

theorem mem_entries_iff (distinct : (intent.vars.map (·.name)).Nodup) {v : Variable}
    (carried : v ∈ intent.vars) (raw : String) :
    (v.name, raw) ∈ intent.entries assignment ↔ (assignment v).map Given.text = some raw := by
  unfold entries
  rw [List.mem_filterMap]
  constructor
  · rintro ⟨w, listed, written⟩
    obtain ⟨given, assigned, same⟩ := Option.map_eq_some_iff.mp written
    obtain ⟨sameName, rfl⟩ := Prod.mk.inj same
    obtain rfl : w = v := List.inj_on_of_nodup_map distinct listed carried sameName
    rw [assigned, Option.map_some]
  · intro written
    obtain ⟨given, assigned, rfl⟩ := Option.map_eq_some_iff.mp written
    exact ⟨v, carried, by rw [assigned, Option.map_some]⟩

/-- In whatever order the entries stand, and whatever else is there under other names, each
variable finds its own. -/
theorem ofPairs_entries (distinct : (intent.vars.map (·.name)).Nodup)
    {pairs extra : List (String × String)} (written : pairs.Perm (intent.entries assignment ++ extra))
    (others : ∀ pair ∈ extra, pair.1 ∉ intent.vars.map (·.name)) {v : Variable}
    (carried : v ∈ intent.vars) :
    Filling.ofPairs pairs v.name = (assignment v).map Given.text := by
  apply lookup_eq_of_mem_iff
  intro raw
  rw [List.mem_reverse, written.mem_iff, List.mem_append, mem_entries_iff distinct carried]
  constructor
  · rintro (own | foreign)
    · exact own
    · exact absurd (List.mem_map_of_mem carried) (others _ foreign)
  · exact .inl

end Intent

/-! ## Whole inferences -/

namespace Grammar

variable {grammar : Grammar} {reserved : ReservedWords} {model : Model} {name : String}
  {intent : Intent} {assignment : Variable → Option Given}

theorem names_nodup_of_intent? (compiled : (grammar.compile reserved).outcome = .ok model)
    (found : model.intent? name = some intent) : (intent.vars.map (·.name)).Nodup :=
  vars_nodup_of_compile compiled intent (List.mem_of_find?_eq_some found)

/-- **Decoding gives back what was written.** Give each variable of an intent a value of its type,
or nothing if it is not required; write the values as texts under the variables' names, in any
order and among any entries under other names. Decoding then gives the intent with its variables
in order, each with the value that was meant, or with none where nothing was given. -/
theorem decode_gives_back (compiled : (grammar.compile reserved).outcome = .ok model)
    (found : model.intent? name = some intent)
    (typed : ∀ v ∈ intent.vars, ∀ given ∈ assignment v, model.HasType v.type given)
    (optional : ∀ v ∈ intent.vars, assignment v = none → v.required = false)
    {pairs extra : List (String × String)} (written : pairs.Perm (intent.entries assignment ++ extra))
    (others : ∀ pair ∈ extra, pair.1 ∉ intent.vars.map (·.name)) :
    ∃ vars, model.decode name true (Filling.ofPairs pairs) = .ok (.understood intent.name vars) ∧
      List.Forall₂ (fun v d => d.name = v.name ∧
        Option.Rel (model.Means v.type) (assignment v) d.value) intent.vars vars := by
  have distinct := names_nodup_of_intent? compiled found
  have each : ∀ v ∈ intent.vars, ∃ d : DecodedVariable,
      model.decodeVariable (Filling.ofPairs pairs) v = .ok d ∧ d.name = v.name ∧
        Option.Rel (model.Means v.type) (assignment v) d.value := by
    intro v carried
    have filled := Intent.ofPairs_entries distinct written others carried
    cases assigned : assignment v with
    | none =>
        rw [assigned, Option.map_none] at filled
        exact ⟨_, Model.decodeVariable_of_none filled (optional v carried assigned), rfl, .none⟩
    | some given =>
        rw [assigned, Option.map_some] at filled
        obtain ⟨value, means⟩ := (typed v carried given assigned).exists_means
        refine ⟨⟨v.name, some value⟩, ?_, rfl, .some means⟩
        rw [Model.decodeVariable, filled]
        dsimp only
        rw [means.decodeValue]
        rfl
  obtain ⟨vars, all⟩ := exists_forall₂ each
  exact ⟨vars, Model.decode_eq_understood found (all.imp fun _ _ both => both.1),
    all.imp fun _ _ both => both.2⟩

/-- The least integer, a slot that lists its element twice, an optional variable that is left
empty, and an entry for nobody. -/
theorem decode_gives_back_paint :
    let grammar : Grammar := ⟨[("Color", ["blue", "red", "red"])],
      [("Paint", ["$Color:tone at $pv.Percent:level by $pv.Alphabetic:mark ($pv.Percent:more)"])]⟩
    let intent : Intent := ⟨"Paint", [⟨"tone", .element 0, true⟩, ⟨"level", .integer, true⟩,
      ⟨"mark", .char, true⟩, ⟨"more", .integer, false⟩]⟩
    let model : Model := ⟨[intent], [⟨"Color", ["blue", "red", "red"]⟩]⟩
    let assignment : Variable → Option Given := fun v =>
      [("tone", .element "red"), ("level", .integer Int64.minValue), ("mark", .char 'é')].lookup v.name
    let pairs := [("who", "me"), ("mark", "é"), ("tone", "red"), ("level", "-9223372036854775808")]
    (grammar.compile .rust).outcome = .ok model ∧ model.intent? "Paint" = some intent ∧
    ∃ vars, model.decode "Paint" true (Filling.ofPairs pairs) = .ok (.understood "Paint" vars) ∧
      List.Forall₂ (fun v d => d.name = v.name ∧
        Option.Rel (model.Means v.type) (assignment v) d.value) intent.vars vars := by
  intro grammar intent model assignment pairs
  have compiled : (grammar.compile .rust).outcome = .ok model := by decide +kernel
  have found : model.intent? "Paint" = some intent := by decide +kernel
  have typed : ∀ v ∈ intent.vars, ∀ given ∈ assignment v, model.HasType v.type given := by
    decide +kernel
  have optional : ∀ v ∈ intent.vars, assignment v = none → v.required = false := by decide +kernel
  have written : pairs.Perm (intent.entries assignment ++ [("who", "me")]) := by decide +kernel
  have others : ∀ pair ∈ [("who", "me")], pair.1 ∉ intent.vars.map (·.name) := by decide +kernel
  exact ⟨compiled, found, decode_gives_back compiled found typed optional written others⟩

end Grammar

end VoiceGrammar
