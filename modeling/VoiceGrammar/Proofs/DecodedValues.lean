/-
# Which texts decode, and what an error says

`Text.IsWord` says in words what an integer text is, and `Model.Accepts` what a text
for a value of each type is. A text decodes exactly if it is accepted
(`Model.decodeValue_ok_iff`). A text that does not decode is wrong for its type, or the
slot of the type is not there (`Model.decodeValue_eq_error`); a missing variable is
reported only for a required variable without a text
(`Model.decodeVariable_missing`). Decoding a variable is
decoding what it is given and then asking whether it may be empty
(`Model.decodeVariable_eq_given`).
-/
import VoiceGrammar.Decoding
import VoiceGrammar.Proofs.Outcome

namespace VoiceGrammar

set_option autoImplicit false

namespace Text

/-- One or more digits and the number they denote. -/
def IsNatural (text : List Char) (value : Nat) : Prop :=
  text ≠ [] ∧ (∀ c ∈ text, isDigit c = true) ∧ digitsValue text = value

/-- A numeral with at most one sign. -/
inductive IsSigned : List Char → Int → Prop where
  | plain {digits : List Char} {value : Nat} (natural : IsNatural digits value) :
      IsSigned digits value
  | plus {digits : List Char} {value : Nat} (natural : IsNatural digits value) :
      IsSigned ('+' :: digits) value
  | minus {digits : List Char} {value : Nat} (natural : IsNatural digits value) :
      IsSigned ('-' :: digits) (-(value : Int))

/-- A numeral whose value is one of a signed 64-bit word. -/
def IsWord (text : String) (value : Int) : Prop :=
  IsSigned text.toList value ∧ Int64.minValue.toInt ≤ value ∧ value ≤ Int64.maxValue.toInt

theorem digitsValue_concat (digits : List Char) (digit : Char) :
    digitsValue (digits ++ [digit]) = 10 * digitsValue digits + digitValue digit := by
  rw [digitsValue, List.foldl_append]
  rfl

theorem toNat_of_isDigit {c : Char} (digit : isDigit c = true) :
    c.toNat = 48 + digitValue c ∧ digitValue c < 10 := by
  rw [isDigit, Bool.and_eq_true, decide_eq_true_iff, decide_eq_true_iff, Char.le_def, Char.le_def,
    UInt32.le_iff_toNat_le, UInt32.le_iff_toNat_le] at digit
  unfold digitValue Char.toNat
  have zero : '0'.val.toNat = 48 := rfl
  have nine : '9'.val.toNat = 57 := rfl
  omega

theorem digitChar_digitValue {c : Char} (digit : isDigit c = true) :
    Nat.digitChar (digitValue c) = c := by
  obtain ⟨code, small⟩ := toNat_of_isDigit digit
  have each : ∀ value < 10, Nat.digitChar value = Char.ofNat (48 + value) := by decide
  rw [each _ small, ← code, Char.ofNat_toNat]

theorem natural?_eq_some_iff {text : List Char} {value : Nat} :
    natural? text = some value ↔ IsNatural text value := by
  unfold natural? IsNatural
  by_cases empty : text = []
  · simp [empty]
  · by_cases digits : ∀ c ∈ text, isDigit c = true
    · have all : text.all isDigit = true := List.all_eq_true.mpr digits
      simpa [empty, all] using fun _ => digits
    · have some : text.all isDigit = false := by
        rw [List.all_eq_false]
        simpa using digits
      simp [some, digits]

/-- A run of digits does not begin with a sign. -/
theorem IsNatural.head_ne {c : Char} {text : List Char} {value : Nat}
    (natural : IsNatural (c :: text) value) : c ≠ '+' ∧ c ≠ '-' := by
  have digit := natural.2.1 c (by simp)
  constructor
  · rintro rfl
    exact absurd digit (by decide)
  · rintro rfl
    exact absurd digit (by decide)

theorem signed?_eq_some_iff {text : List Char} {value : Int} :
    signed? text = some value ↔ IsSigned text value := by
  constructor
  · intro found
    unfold signed? at found
    split at found
    all_goals
      obtain ⟨magnitude, read, rfl⟩ := Option.map_eq_some_iff.mp found
      have natural := natural?_eq_some_iff.mp read
    · exact .plus natural
    · exact .minus natural
    · exact .plain natural
  · intro signed
    cases signed with
    | plus natural => simp [signed?, natural?_eq_some_iff.mpr natural]
    | minus natural => simp [signed?, natural?_eq_some_iff.mpr natural]
    | plain natural =>
        cases text with
        | nil => exact absurd rfl natural.1
        | cons c text =>
            obtain ⟨notPlus, notMinus⟩ := natural.head_ne
            unfold signed?
            split
            · simp_all
            · simp_all
            · simp [natural?_eq_some_iff.mpr natural]

theorem word?_eq_some_iff {text : String} {value : Int} :
    word? text = some value ↔ IsWord text value := by
  have least : Int64.minValue.toInt = -9223372036854775808 := by decide
  have greatest : Int64.maxValue.toInt = 9223372036854775807 := by decide
  unfold word? IsWord
  rw [least, greatest, Option.filter_eq_some_iff, signed?_eq_some_iff, fitsWord, Bool.and_eq_true,
    decide_eq_true_iff, decide_eq_true_iff]

end Text

theorem Slot.position?_isSome_iff {slot : Slot} {raw : String} :
    (slot.position? raw).isSome ↔ raw ∈ slot.elements := by
  simp [Slot.position?]

/-- The position of a text is where it is listed first. -/
theorem Slot.position?_eq_some_iff {slot : Slot} {raw : String} {index : Nat} :
    slot.position? raw = some index ↔
      slot.elements[index]? = some raw ∧ ∀ earlier < index, slot.elements[earlier]? ≠ some raw := by
  rw [Slot.position?, List.idxOf?_eq_some_iff]
  constructor
  · rintro ⟨bound, here, first⟩
    refine ⟨by rw [List.getElem?_eq_getElem bound, here], fun earlier before listed => ?_⟩
    obtain ⟨_, same⟩ := List.getElem?_eq_some_iff.mp listed
    exact first earlier before same
  · rintro ⟨listed, first⟩
    obtain ⟨bound, here⟩ := List.getElem?_eq_some_iff.mp listed
    refine ⟨bound, here, fun earlier before same => first earlier before ?_⟩
    rw [List.getElem?_eq_getElem (Nat.lt_trans before bound), same]

namespace Model

/-- A text for a value of the type. -/
def Accepts (model : Model) : ValueType → String → Prop
  | .char, raw => ∃ c, raw.toList = [c]
  | .integer, raw => ∃ value, Text.IsWord raw value
  | .element position, raw => ∃ slot, model.slot? position = some slot ∧ raw ∈ slot.elements

theorem decodeValue_ok_iff {model : Model} {name : String} {type : ValueType} {raw : String} :
    (∃ value, model.decodeValue name type raw = .ok value) ↔ model.Accepts type raw := by
  cases type with
  | char =>
      unfold decodeValue Accepts
      dsimp only
      split
      · rename_i c text
        simp [text]
      · rename_i long
        simpa using long
  | integer =>
      unfold decodeValue Accepts
      dsimp only
      split
      · rename_i value read
        exact ⟨fun _ => ⟨value, Text.word?_eq_some_iff.mp read⟩, fun _ => ⟨_, rfl⟩⟩
      · rename_i unread
        constructor
        · rintro ⟨value, wrong⟩
          cases wrong
        · rintro ⟨value, word⟩
          rw [Text.word?_eq_some_iff.mpr word] at unread
          cases unread
  | element position =>
      unfold decodeValue Accepts
      dsimp only
      cases model.slot? position with
      | none => simp
      | some slot =>
          have listed := @Slot.position?_isSome_iff slot raw
          cases found : slot.position? raw with
          | none => simpa [found] using listed
          | some index => simpa [found] using listed

/-- How a text fails to decode: it is wrong for the type, or the slot of the type is not there. -/
theorem decodeValue_eq_error {model : Model} {name raw : String} {type : ValueType}
    {error : DecodeError} (failed : model.decodeValue name type raw = .error error) :
    error = .invalidChar name raw ∨ error = .invalidInteger name raw ∨
      (∃ slot, error = .invalidElement slot raw name) ∨
      ∃ position, type = .element position ∧ model.slot? position = none ∧
        error = .danglingSlot position := by
  cases type with
  | char =>
      simp only [decodeValue] at failed
      split at failed
      · cases failed
      · cases failed
        exact .inl rfl
  | integer =>
      simp only [decodeValue] at failed
      split at failed
      · cases failed
      · cases failed
        exact .inr (.inl rfl)
  | element position =>
      simp only [decodeValue] at failed
      split at failed
      · rename_i absent
        cases failed
        exact .inr (.inr (.inr ⟨position, rfl, absent, rfl⟩))
      · rename_i slot _
        split at failed
        · cases failed
        · cases failed
          exact .inr (.inr (.inl ⟨slot.name, rfl⟩))

theorem decodeValue_ne_missing {model : Model} {name raw missing : String} {type : ValueType} :
    model.decodeValue name type raw ≠ .error (.missingVariable missing) := by
  intro failed
  rcases decodeValue_eq_error failed with same | same | ⟨_, same⟩ | ⟨_, _, _, same⟩ <;> cases same

/-- A variable fails with its text, or because it is required and has none. -/
theorem decodeVariable_eq_error {model : Model} {filling : Filling} {v : Variable}
    {error : DecodeError} :
    model.decodeVariable filling v = .error error ↔
      (∃ raw, filling v.name = some raw ∧ model.decodeValue v.name v.type raw = .error error) ∨
      (filling v.name = none ∧ v.required = true ∧ error = .missingVariable v.name) := by
  unfold decodeVariable
  cases filled : filling v.name with
  | some raw => cases decoded : model.decodeValue v.name v.type raw <;> simp [Except.map, decoded]
  | none => cases v.required <;> simp [eq_comm]

/-- A variable is missing if it is required and has no text. -/
theorem decodeVariable_missing {model : Model} {filling : Filling} {v : Variable} {missing : String} :
    model.decodeVariable filling v = .error (.missingVariable missing) ↔
      filling v.name = none ∧ v.required = true ∧ v.name = missing := by
  rw [decodeVariable_eq_error]
  constructor
  · rintro (⟨raw, -, failed⟩ | ⟨empty, required, same⟩)
    · exact absurd failed decodeValue_ne_missing
    · cases same
      exact ⟨empty, required, rfl⟩
  · rintro ⟨empty, required, rfl⟩
    exact .inr ⟨empty, required, rfl⟩

/-- What a filling gives a variable, before it is asked whether the variable may be empty. -/
def given (model : Model) (filling : Filling) (v : Variable) : Except DecodeError (Option Value) :=
  match filling v.name with
  | none => .ok none
  | some raw => (model.decodeValue v.name v.type raw).map some

theorem decodeVariable_eq_given {model : Model} (filling : Filling) (v : Variable) :
    model.decodeVariable filling v = model.given filling v >>= fun value =>
      if v.required = true ∧ value = none then .error (.missingVariable v.name)
      else .ok ⟨v.name, value⟩ := by
  unfold decodeVariable given
  cases filling v.name with
  | none => cases v.required <;> rfl
  | some raw =>
      dsimp only
      cases model.decodeValue v.name v.type raw <;> simp [Except.map]

theorem decodeVariable_of_none {model : Model} {filling : Filling} {v : Variable}
    (empty : filling v.name = none) (optional : v.required = false) :
    model.decodeVariable filling v = .ok ⟨v.name, none⟩ := by
  simp [decodeVariable, empty, optional]

end Model

end VoiceGrammar
