/-
# Where the Kotlin that is written decodes like the model

`Agrees` relates what `from` returns or throws to what decoding with the model gives.
There are two ways for them to part. A text that does not compile decodes nothing, and
it compiles exactly for a legible model. And a text can be fine for the model, whose
integers have 64 bits and whose characters are any, but too wide for `Int` or `Char`
(`TooWide`): then an exception is thrown where the model has a value.

Each variable is read alike unless its text is too wide (`field_agrees`). So a whole
intent is, unless the first variable with which anything is wrong has a text that is too
wide (`FirstTooWide`, `fields_agree`). Such a text cannot be mistaken for an error of the
model (`TooWide.not_same`), so agreement ends exactly there.
-/
import VoiceGrammar.Generation
import VoiceGrammar.Proofs.Kotlin.Legibility
import VoiceGrammar.Proofs.OffendingVariables

namespace VoiceGrammar.Decoder.Kotlin

set_option autoImplicit false

/-! ## What agreement is -/

/-- The exception of the same kind with the same payload. -/
inductive SameError : DecodingException → DecodeError → Prop where
  | unknownIntent (intent : String) :
      SameError (.unknownIntentName (some intent)) (.unknownIntent intent)
  | missing (name : String) : SameError (.missingRequiredVariable name) (.missingVariable name)
  | char (name raw : String) : SameError (.invalidCharValue name raw) (.invalidChar name raw)
  | integer (name raw : String) :
      SameError (.invalidIntegerValue name raw) (.invalidInteger name raw)
  | element (slot raw name : String) :
      SameError (.invalidEnumValue slot raw name) (.invalidElement slot raw name)

/-- Both sides end with results that are related, or both with the same error. -/
inductive Agrees {α β : Type} (related : α → β → Prop) : Eval α → Except DecodeError β → Prop where
  | ok {made : α} {decoded : β} (same : related made decoded) :
      Agrees related (.ok made) (.ok decoded)
  | thrown {exception : DecodingException} {error : DecodeError}
      (same : SameError exception error) :
      Agrees related (.error (.thrown exception)) (.error error)

inductive SameValue : Datum → Value → Prop where
  | char {unit : UInt16} {c : Char} (same : unit.toNat = c.toNat) : SameValue (.char unit) (.char c)
  | integer {number : Int32} {value : Int} (same : number.toInt = value) :
      SameValue (.int number) (.integer value)
  | element (slot element : String) (index : Nat) :
      SameValue (.entry slot element) (.element slot element index)

/-- The property of a variable, with a value exactly if the variable has one. -/
def SameField (property : String × Option Datum) (d : DecodedVariable) : Prop :=
  property.1 = d.name ∧ Option.Rel SameValue property.2 d.value

/-- The type of the intent, which is that of no other intent, with a property for each variable in
order. -/
inductive SameResult (model : Model) : Instance → Decoded → Prop where
  | notUnderstood : SameResult model ⟨"NotUnderstood", []⟩ .notUnderstood
  | understood {name : String} {fields : List (String × Option Datum)}
      {vars : List DecodedVariable} (own : Target.kotlin.intentType name ≠ "NotUnderstood")
      (only : ∀ other ∈ model.intents,
        Target.kotlin.intentType other.name = Target.kotlin.intentType name → other.name = name)
      (values : List.Forall₂ SameField fields vars) :
      SameResult model ⟨Target.kotlin.intentType name, fields⟩ (.understood name vars)

/-! ## Texts that are too wide -/

/-- The text of a variable decodes, but its type in Kotlin has no such value. -/
inductive TooWide (filling : Filling) (v : Variable) : DecodingException → Prop where
  | char {raw : String} {c : Char} (present : filling v.name = some raw) (typed : v.type = .char)
      (single : raw.toList = [c]) (wide : 0x10000 ≤ c.toNat) :
      TooWide filling v (.invalidCharValue v.name raw)
  | integer {raw : String} {value : Int} (present : filling v.name = some raw)
      (typed : v.type = .integer) (word : Text.IsWord raw value)
      (wide : fitsInt value = false) :
      TooWide filling v (.invalidIntegerValue v.name raw)

/-- What ends the decoding of a variable: it offends, or its text is too wide. -/
inductive Fault (model : Model) (filling : Filling) (v : Variable) :
    DecodeError ⊕ DecodingException → Prop where
  | offends {error : DecodeError} (offends : model.Offends filling v error) :
      Fault model filling v (.inl error)
  | wide {exception : DecodingException} (wide : TooWide filling v exception) :
      Fault model filling v (.inr exception)

/-- The first variable with which anything is wrong has a text that is too wide. -/
def FirstTooWide (model : Model) (filling : Filling) (vars : List Variable)
    (exception : DecodingException) : Prop :=
  FirstFault (Fault model filling) vars (.inr exception)

/-- An inference that names an intent and comes to a text that is too wide. -/
def Overflows (model : Model) (intent : String) (understood : Bool) (filling : Filling)
    (exception : DecodingException) : Prop :=
  understood = true ∧ ∃ found ∈ model.intent? intent,
    FirstTooWide model filling found.vars exception

section TooWide

variable {model : Model} {filling : Filling} {v : Variable} {exception : DecodingException}

theorem TooWide.exists_text (wide : TooWide filling v exception) :
    ∃ raw, filling v.name = some raw := by
  cases wide with
  | char present _ _ _ => exact ⟨_, present⟩
  | integer present _ _ _ => exact ⟨_, present⟩

theorem TooWide.exists_holds (wide : TooWide filling v exception) (model : Model) :
    ∃ value, model.Holds filling v value := by
  cases wide with
  | char present typed single _ => exact ⟨_, .char present typed single⟩
  | integer present typed word _ => exact ⟨_, .integer present typed word⟩

theorem TooWide.not_offends (wide : TooWide filling v exception) (error : DecodeError) :
    ¬ model.Offends filling v error := by
  intro offends
  obtain ⟨value, holds⟩ := wide.exists_holds model
  cases holds.decodeVariable.symm.trans offends.decodeVariable

/-- What is thrown for a text that is too wide is the error of no variable. -/
theorem TooWide.not_same (wide : TooWide filling v exception) {other : Variable}
    {error : DecodeError} (offends : model.Offends filling other error) :
    ¬ SameError exception error := by
  intro same
  cases wide with
  | char _ _ single _ =>
      generalize v.name = name at same
      cases same
      cases offends with
      | char _ _ wrong => exact wrong (by rw [← String.length_toList, single]; rfl)
  | integer _ _ word _ =>
      generalize v.name = name at same
      cases same
      cases offends with
      | integer _ _ wrong => exact wrong _ word

theorem TooWide.of_char {raw : String} (wide : TooWide filling v exception)
    (present : filling v.name = some raw) (typed : v.type = .char) :
    (∃ c, raw.toList = [c] ∧ 0x10000 ≤ c.toNat) ∧ exception = .invalidCharValue v.name raw := by
  cases wide with
  | char found _ single wide =>
      cases present.symm.trans found
      exact ⟨⟨_, single, wide⟩, rfl⟩
  | integer _ other _ _ => cases typed.symm.trans other

theorem TooWide.of_integer {raw : String} (wide : TooWide filling v exception)
    (present : filling v.name = some raw) (typed : v.type = .integer) :
    (∃ value, Text.IsWord raw value ∧ fitsInt value = false) ∧
      exception = .invalidIntegerValue v.name raw := by
  cases wide with
  | char _ other _ _ => cases typed.symm.trans other
  | integer found _ word wide =>
      cases present.symm.trans found
      exact ⟨⟨_, word, wide⟩, rfl⟩

theorem TooWide.unique {other : DecodingException} (one : TooWide filling v exception)
    (two : TooWide filling v other) : exception = other := by
  cases one with
  | char present typed _ _ => exact (two.of_char present typed).2.symm
  | integer present typed _ _ => exact (two.of_integer present typed).2.symm

theorem Fault.unique {first second : DecodeError ⊕ DecodingException}
    (one : Fault model filling v first) (two : Fault model filling v second) : first = second := by
  cases one with
  | offends offends =>
      cases two with
      | offends offends' => rw [offends.unique offends']
      | wide wide' => exact absurd offends (wide'.not_offends _)
  | wide wide =>
      cases two with
      | offends offends' => exact absurd offends' (wide.not_offends _)
      | wide wide' => rw [wide.unique wide']

end TooWide

/-- Both sides agree, unless a text is too wide: then that is thrown. -/
inductive AgreesUnless {α β : Type} (wide : DecodingException → Prop) (related : α → β → Prop) :
    Eval α → Except DecodeError β → Prop where
  | wide {exception : DecodingException} {decoded : Except DecodeError β} (found : wide exception) :
      AgreesUnless wide related (.error (.thrown exception)) decoded
  | agrees {ran : Eval α} {decoded : Except DecodeError β} (none : ∀ exception, ¬ wide exception)
      (agree : Agrees related ran decoded) : AgreesUnless wide related ran decoded

theorem AgreesUnless.bind {α β γ δ : Type} {wide : DecodingException → Prop}
    {related : α → β → Prop} {related' : γ → δ → Prop} {ran : Eval α}
    {decoded : Except DecodeError β} {next : α → Eval γ} {next' : β → Except DecodeError δ}
    (first : AgreesUnless wide related ran decoded)
    (rest : ∀ made value, related made value → Agrees related' (next made) (next' value)) :
    AgreesUnless wide related' (ran >>= next) (decoded >>= next') := by
  cases first with
  | wide found => exact .wide found
  | agrees none agree =>
      cases agree with
      | ok same => exact .agrees none (rest _ _ same)
      | thrown same => exact .agrees none (.thrown same)

theorem AgreesUnless.map {α β γ δ : Type} {wide : DecodingException → Prop}
    {related : α → β → Prop} {related' : γ → δ → Prop} {ran : Eval α}
    {decoded : Except DecodeError β} {f : α → γ} {g : β → δ}
    (first : AgreesUnless wide related ran decoded)
    (each : ∀ made value, related made value → related' (f made) (g value)) :
    AgreesUnless wide related' (ran.map f) (decoded.map g) := by
  cases first with
  | wide found => exact .wide found
  | agrees none agree =>
      cases agree with
      | ok same => exact .agrees none (.ok (each _ _ same))
      | thrown same => exact .agrees none (.thrown same)

/-! ## Fields -/

/-- The enumeration of a slot as it is written. -/
def EnumDecl.ofSlot (slot : Slot) : EnumDecl :=
  .ofEnumeration (.ofSlot .kotlin slot)

theorem entries_ofSlot (slot : Slot) :
    (EnumDecl.ofSlot slot).entries = distinct slot.elements := by
  simp [EnumDecl.ofSlot, EnumDecl.ofEnumeration, Enumeration.ofSlot, Target.identifier,
    Function.comp_def]

theorem find?_entries (slot : Slot) (raw : String) :
    (EnumDecl.ofSlot slot).entries.find? (· == raw) =
      if raw ∈ slot.elements then some raw else none := by
  rw [entries_ofSlot]
  cases found : (distinct slot.elements).find? (· == raw) with
  | some other =>
      obtain rfl : other = raw := eq_of_beq (List.find?_some found :)
      rw [if_pos (mem_distinct.mp (List.mem_of_find?_eq_some found))]
  | none =>
      rw [if_neg]
      intro listed
      simpa using List.find?_eq_none.mp found raw (mem_distinct.mpr listed)

section Texts

variable {model : Model} {slots : Filling} {v : Variable} {raw : String}

theorem entry_agrees {position : Nat} {slot : Slot} (typed : v.type = .element position)
    (found : model.slot? position = some slot) :
    AgreesUnless (TooWide slots v) SameValue
      (orThrow (.invalidEnumValue slot.name raw v.name)
        (((EnumDecl.ofSlot slot).entries.find? (· == raw)).map (.entry slot.name)))
      (model.decodeValue v.name v.type raw) := by
  have narrow : ∀ exception, ¬ TooWide slots v exception := by
    intro exception wide
    cases wide with
    | char _ other _ _ => cases typed.symm.trans other
    | integer _ other _ _ => cases typed.symm.trans other
  have listed := @Slot.position?_isSome_iff slot raw
  refine .agrees narrow ?_
  simp only [typed, Model.decodeValue, found, find?_entries]
  cases place : slot.position? raw with
  | none =>
      have missing : raw ∉ slot.elements := by simpa [place] using listed
      rw [if_neg missing]
      exact .thrown (.element _ _ _)
  | some index =>
      have member : raw ∈ slot.elements := by simpa [place] using listed
      rw [if_pos member]
      exact .ok (.element _ _ _)

variable (present : slots v.name = some raw)

include present

theorem char_agrees (typed : v.type = .char) :
    AgreesUnless (TooWide slots v) SameValue
      (orThrow (.invalidCharValue v.name raw) ((singleOrNull raw).map .char))
      (model.decodeValue v.name v.type raw) := by
  by_cases one : ∃ c, raw.toList = [c]
  · obtain ⟨c, single⟩ := one
    have decoded : model.decodeValue v.name v.type raw = .ok (.char c) := by
      simp only [typed, Model.decodeValue, single]
    rw [decoded]
    cases read : singleOrNull raw with
    | some unit =>
        obtain ⟨d, spelled, narrow, same⟩ := singleOrNull_eq_some_iff.mp read
        cases single.symm.trans spelled
        refine .agrees (fun exception wide => ?_) (.ok (.char same))
        obtain ⟨⟨d, spelled, wide⟩, -⟩ := wide.of_char present typed
        cases single.symm.trans spelled
        omega
    | none =>
        refine .wide (.char present typed single (Nat.le_of_not_lt fun narrow => ?_))
        have found := singleOrNull_eq_some_iff.mpr
          ⟨c, single, narrow, by rw [UInt16.toNat_ofNat', Nat.mod_eq_of_lt narrow]⟩
        cases read.symm.trans found
  · have failed : model.decodeValue v.name v.type raw = .error (.invalidChar v.name raw) := by
      simp only [typed, Model.decodeValue]
      split
      · exact absurd ⟨_, ‹_›⟩ one
      · rfl
    have unread : singleOrNull raw = none := by
      rw [Option.eq_none_iff_forall_ne_some]
      intro unit read
      obtain ⟨c, single, -⟩ := singleOrNull_eq_some_iff.mp read
      exact one ⟨c, single⟩
    rw [failed, unread]
    refine .agrees (fun exception wide => ?_) (.thrown (.char _ _))
    obtain ⟨⟨c, single, -⟩, -⟩ := wide.of_char present typed
    exact one ⟨c, single⟩

theorem int_agrees (typed : v.type = .integer) :
    AgreesUnless (TooWide slots v) SameValue
      (orThrow (.invalidIntegerValue v.name raw) ((toIntOrNull raw).map .int))
      (model.decodeValue v.name v.type raw) := by
  simp only [toIntOrNull_eq_word?, typed, Model.decodeValue]
  cases read : Text.word? raw with
  | none =>
      refine .agrees (fun exception wide => ?_) (.thrown (.integer _ _))
      obtain ⟨⟨value, word, -⟩, -⟩ := wide.of_integer present typed
      cases read.symm.trans (Text.word?_eq_some_iff.mpr word)
  | some value =>
      cases fits : fitsInt value with
      | false =>
          rw [Option.filter_some_neg (by simp [fits])]
          exact .wide (.integer present typed (Text.word?_eq_some_iff.mp read) fits)
      | true =>
          rw [Option.filter_some_pos fits]
          refine .agrees (fun exception wide => ?_) (.ok (.integer (toInt_ofInt_of_fitsInt fits)))
          obtain ⟨⟨other, word, wide⟩, -⟩ := wide.of_integer present typed
          cases read.symm.trans (Text.word?_eq_some_iff.mpr word)
          cases fits.symm.trans wide

end Texts

section Fields

variable {model : Model} {slots : Filling} {v : Variable}

/-- The helpers differ in how they read a text, and only in that. -/
theorem readOrThrow_agrees {read : String → Option Datum} {otherwise : String → DecodingException}
    (each : ∀ raw, slots v.name = some raw → AgreesUnless (TooWide slots v) SameValue
      (orThrow (otherwise raw) (read raw)) (model.decodeValue v.name v.type raw)) :
    AgreesUnless (TooWide slots v) (Option.Rel SameValue)
      (readOrThrow slots v.name read otherwise) (model.given slots v) := by
  unfold readOrThrow Model.given
  cases present : slots v.name with
  | none =>
      refine .agrees (fun exception wide => ?_) (.ok .none)
      obtain ⟨raw, found⟩ := wide.exists_text
      cases present.symm.trans found
  | some raw => exact (each raw present).map fun datum value same => .some same

variable {program : Program} (made : Program.ofModel? .kotlin model = some program)
  (apart : (model.slots.map (·.name)).Nodup)

include made apart

theorem enum_eq_some {slot : Slot} (member : slot ∈ model.slots) :
    (Source.ofProgram program).enums.find? (·.name == slot.name) = some (.ofSlot slot) := by
  have declared : (Source.ofProgram program).enums = model.slots.map EnumDecl.ofSlot := by
    rw [Source.ofProgram, (Program.ofModel?_eq_some.mp made).1, List.map_map]
    rfl
  have names : ((Source.ofProgram program).enums.map (·.name)).Nodup := by
    rw [enum_names_eq made]
    exact apart
  have listed : EnumDecl.ofSlot slot ∈ (Source.ofProgram program).enums := by
    rw [declared]
    exact List.mem_map_of_mem member
  exact find?_name_eq names listed

/-- What a field looks up is what the filling gives the variable. -/
theorem lookup_agrees {reading : Reading}
    (read : Reading.ofType? .kotlin model v.type = some reading) :
    AgreesUnless (TooWide slots v) (Option.Rel SameValue)
      ((Source.ofProgram program).eval slots (.ofReading v.name reading))
      (model.given slots v) := by
  cases typed : v.type with
  | char =>
      rw [typed] at read
      cases read
      simp only [Expr.ofReading, Source.eval, denoted_literal, orStuck, except_ok_bind]
      exact readOrThrow_agrees fun raw present => char_agrees present typed
  | integer =>
      rw [typed] at read
      cases read
      simp only [Expr.ofReading, Source.eval, denoted_literal, orStuck, except_ok_bind]
      exact readOrThrow_agrees fun raw present => int_agrees present typed
  | element position =>
      rw [typed] at read
      obtain ⟨slot, found, rfl⟩ := Option.map_eq_some_iff.mp read
      have declared := enum_eq_some made apart (List.mem_of_getElem? found)
      simp only [Expr.ofReading, Source.eval, Target.identifier, denoted_literal, orStuck,
        except_ok_bind, declared]
      exact readOrThrow_agrees fun raw _ => entry_agrees typed found

/-- **An argument reads its variable**, unless the text is too wide. -/
theorem field_agrees {field : Field} (written : Field.ofVariable? .kotlin model v = some field) :
    AgreesUnless (TooWide slots v) (fun value d => Option.Rel SameValue value d.value)
      ((Source.ofProgram program).eval slots (.ofField field)) (model.decodeVariable slots v) := by
  obtain ⟨reading, read, rfl⟩ := Option.map_eq_some_iff.mp written
  have looked : AgreesUnless (TooWide slots v) _ _ _ := lookup_agrees made apart read
  rw [Model.decodeVariable_eq_given]
  unfold Expr.ofField
  cases needed : v.required with
  | false =>
      simp only [Bool.false_eq_true, ↓reduceIte, false_and]
      generalize (Source.ofProgram program).eval slots (.ofReading v.name reading) = ran at looked ⊢
      generalize model.given slots v = given at looked ⊢
      cases looked with
      | wide found => exact .wide found
      | agrees narrow agree =>
          cases agree with
          | ok same => exact .agrees narrow (.ok same)
          | thrown same => exact .agrees narrow (.thrown same)
  | true =>
      simp only [↓reduceIte, Source.eval, denoted_literal, orStuck, except_ok_bind, true_and]
      refine looked.bind fun value given same => ?_
      cases same with
      | none => exact .thrown (.missing v.name)
      | some same => exact .ok (.some same)

end Fields

/-! ## Whole inferences -/

/-- What agrees variable by variable agrees as a whole, up to the first text that is too wide. -/
theorem fields_agree {α : Type} {related : α → DecodedVariable → Prop} {model : Model}
    {slots : Filling} {f : Field → Eval α} {vars : List Variable} {fields : List Field}
    (each : List.Forall₂ (fun v field => AgreesUnless (TooWide slots v) related (f field)
      (model.decodeVariable slots v)) vars fields) :
    AgreesUnless (FirstTooWide model slots vars) (List.Forall₂ related) (fields.mapM f)
      (vars.mapM (model.decodeVariable slots)) := by
  induction each with
  | nil => exact .agrees nofun (.ok .nil)
  | @cons v field vars fields one _ ih =>
      rw [List.mapM_cons, List.mapM_cons]
      generalize f field = ran at one
      generalize decoded : model.decodeVariable slots v = outcome at one
      cases one with
      | wide found => exact .wide (.here (.wide found))
      | agrees narrow agree =>
          cases agree with
          | thrown same =>
              refine .agrees (fun exception overflow => ?_) (.thrown same)
              cases overflow with
              | here fault =>
                  cases fault with
                  | wide wide => exact narrow _ wide
              | later sound _ =>
                  exact sound _ (.offends (Model.decodeVariable_eq_error_iff.mp decoded))
          | ok same =>
              have sound : ∀ fault, ¬ Fault model slots v fault := by
                intro fault wrong
                cases wrong with
                | offends offends => cases decoded.symm.trans offends.decodeVariable
                | wide wide => exact narrow _ wide
              have rest : FirstTooWide model slots (v :: vars) = FirstTooWide model slots vars :=
                funext fun exception => propext (FirstFault.cons_iff sound)
              rw [rest]
              exact ih.bind fun values others all => .ok (.cons same all)

theorem sameField_zip {values : List (Option Datum)} {vars : List DecodedVariable}
    (same : List.Forall₂ (fun value d => Option.Rel SameValue value d.value) values vars) :
    List.Forall₂ SameField ((vars.map (·.name)).zip values) vars := by
  induction same with
  | nil => exact .nil
  | cons one _ ih => exact .cons ⟨rfl, one⟩ ih

section Inferences

variable {model : Model} {program : Program}
  (made : Program.ofModel? .kotlin model = some program)
  (accepted : model.checkNames .kotlin = .ok ()) (apart : (model.slots.map (·.name)).Nodup)

include made accepted

theorem construct_eq_ok {arm : Arm} (listed : arm ∈ program.arms) (values : List (Option Datum)) :
    (Source.ofProgram program).construct arm.variant values =
      .ok ⟨arm.variant, (arm.fields.map (·.label)).zip values⟩ := by
  have found := find?_intents (nestedTypes_nodup made accepted) listed
  simp only [Source.construct, found, orStuck, except_ok_bind, IntentDecl.ofArm, List.map_map]
  rfl

include apart

/-- What the branch of an intent makes is what the intent decodes to. -/
theorem branch_agrees (slots : Filling) {intent : Intent} {arm : Arm}
    (member : intent ∈ model.intents) (listed : arm ∈ program.arms)
    (written : Arm.ofIntent? .kotlin model intent = some arm) :
    AgreesUnless (FirstTooWide model slots intent.vars) (SameResult model)
      ((Branch.ofArm arm).arguments.mapM ((Source.ofProgram program).eval slots) >>=
        (Source.ofProgram program).construct arm.variant)
      ((intent.vars.mapM (model.decodeVariable slots)).map (.understood intent.name)) := by
  obtain ⟨-, variant, each⟩ := Arm.ofIntent?_eq_some.mp written
  have read : AgreesUnless (FirstTooWide model slots intent.vars)
      (List.Forall₂ fun value d => Option.Rel SameValue value d.value)
      (arm.fields.mapM ((Source.ofProgram program).eval slots ∘ Expr.ofField))
      (intent.vars.mapM (model.decodeVariable slots)) := by
    refine fields_agree (each.imp fun v field one => ?_)
    exact field_agrees made apart one
  rw [Branch.ofArm, List.mapM_map]
  generalize arm.fields.mapM ((Source.ofProgram program).eval slots ∘ Expr.ofField) = ran at read ⊢
  generalize decoded : intent.vars.mapM (model.decodeVariable slots) = outcome at read ⊢
  cases read with
  | wide found => exact .wide found
  | agrees none agree =>
      cases agree with
      | thrown same => exact .agrees none (.thrown same)
      | @ok values vars same =>
          have named : vars.map (·.name) = arm.fields.map (·.label) := by
            rw [Arm.labels_of_ofIntent? written]
            refine map_eq_map_of_forall₂ ((mapM_except_eq_ok.mp decoded).imp fun v d one => ?_)
            exact (Model.decodeVariable_eq_ok_iff.mp one).1
          obtain ⟨types, own⟩ := Model.checkNames_eq_ok.mp accepted
          rw [except_ok_bind, construct_eq_ok made accepted listed, variant, ← named]
          refine .agrees none (.ok (.understood ?_ ?_ (sameField_zip same)))
          · intro taken
            exact own intent member (by rw [taken]; decide)
          · intro other among alike
            rw [List.inj_on_of_nodup_map types among member alike]

theorem decode_agrees (compiles : (Source.ofProgram program).Compiles) (intent : String)
    (understood : Bool) (slots : Filling) :
    AgreesUnless (Overflows model intent understood slots) (SameResult model)
      ((Source.ofProgram program).decode (some intent) understood slots)
      (model.decode intent understood slots) := by
  rw [Source.decode, if_pos compiles, Model.decode]
  cases understood with
  | false => exact .agrees (fun exception overflow => by cases overflow.1) (.ok .notUnderstood)
  | true =>
      have found := Program.find?_rel_intent? made intent
      simp only [↓reduceIte, Option.bind_some, branch?_ofProgram]
      generalize named : model.intent? intent = intent? at found ⊢
      generalize keyed : program.arms.find? (·.key == intent) = arm? at found ⊢
      cases found with
      | none =>
          refine .agrees (fun exception overflow => ?_) (.thrown (.unknownIntent intent))
          obtain ⟨-, other, among, -⟩ := overflow
          cases named.symm.trans among
      | @some found arm written =>
          have same : Overflows model intent true slots = FirstTooWide model slots found.vars := by
            funext exception
            simp [Overflows, named]
          rw [same]
          exact branch_agrees made accepted apart slots (List.mem_of_find?_eq_some named)
            (List.mem_of_find?_eq_some keyed) written

omit made accepted apart in
theorem Overflows.unique {intent : String} {understood : Bool} {slots : Filling}
    {exception other : DecodingException} (one : Overflows model intent understood slots exception)
    (two : Overflows model intent understood slots other) : exception = other := by
  obtain ⟨-, found, named, first⟩ := one
  obtain ⟨-, found', named', first'⟩ := two
  cases named.symm.trans named'
  have functional : ∀ v one two, Fault model slots v one → Fault model slots v two → one = two :=
    fun _ _ _ => Fault.unique
  exact Sum.inr.inj (FirstFault.unique functional first first')

variable {intent : String} {understood : Bool} {slots : Filling} {exception : DecodingException}

theorem Overflows.decode_eq (overflow : Overflows model intent understood slots exception)
    (compiles : (Source.ofProgram program).Compiles) :
    (Source.ofProgram program).decode (some intent) understood slots =
      .error (.thrown exception) := by
  have whole := decode_agrees made accepted apart compiles intent understood slots
  generalize (Source.ofProgram program).decode (some intent) understood slots = ran at whole ⊢
  cases whole with
  | wide found => rw [found.unique overflow]
  | agrees none _ => exact absurd overflow (none exception)

/-- The model either decodes what overflows or has something else to report. -/
theorem Overflows.not_agrees (overflow : Overflows model intent understood slots exception)
    (compiles : (Source.ofProgram program).Compiles) :
    ¬ Agrees (SameResult model) ((Source.ofProgram program).decode (some intent) understood slots)
      (model.decode intent understood slots) := by
  intro agree
  rw [overflow.decode_eq made accepted apart compiles] at agree
  obtain ⟨rfl, found, named, first⟩ := overflow
  generalize decoded : model.decode intent true slots = outcome at agree
  cases agree with
  | thrown same =>
      obtain ⟨v, -, fault⟩ := first.exists_faulty
      obtain ⟨other, -, offends⟩ := ((Model.decode_eq_error_iff named).mp decoded).exists_faulty
      cases fault with
      | wide wide => exact wide.not_same offends same

/-- **The two decoders agree on the inferences of a legible model that do not overflow.** -/
theorem agrees_iff (vars : ∀ intent ∈ model.intents, (intent.vars.map (·.name)).Nodup) :
    Agrees (SameResult model) ((Source.ofProgram program).decode (some intent) understood slots)
        (model.decode intent understood slots) ↔
      Legible model ∧ ∀ exception, ¬ Overflows model intent understood slots exception := by
  have compiles_iff := compiles_iff made accepted apart vars
  constructor
  · intro agree
    have compiles : (Source.ofProgram program).Compiles := by
      by_contra broken
      rw [Source.decode, if_neg broken] at agree
      cases agree
    exact ⟨compiles_iff.mp compiles, fun exception overflow =>
      overflow.not_agrees made accepted apart compiles agree⟩
  · rintro ⟨legible, none⟩
    have compiles := compiles_iff.mpr legible
    have whole := decode_agrees made accepted apart compiles intent understood slots
    generalize (Source.ofProgram program).decode (some intent) understood slots = ran at whole ⊢
    cases whole with
    | wide found => exact absurd found (none _)
    | agrees _ agree => exact agree

end Inferences

end VoiceGrammar.Decoder.Kotlin

namespace VoiceGrammar.Grammar

open Decoder Decoder.Kotlin

/-- **The Kotlin decoder that is written for a grammar agrees with its model** exactly if the model
is legible and the inference does not come to a text that is too wide. The text of an illegible
model has no meaning, and where a text is too wide the decoder throws as it does for one that is no
character or no integer at all. It is exact by the rules of `Source.Compiles`. These take every name
for an identifier, and they leave out the function `to` of the library, which an intent of that name
with one variable would meet. -/
theorem kotlin_decoder_agrees_iff {grammar : Grammar} {model : Model}
    (compiled : (grammar.compile .kotlin).outcome = .ok model)
    (accepted : model.checkNames .kotlin = .ok ()) (apart : (model.slots.map (·.name)).Nodup) :
    ∃ program, Program.ofModel? .kotlin model = some program ∧
      (∀ package, model.render? .kotlin package = some ((Source.ofProgram program).text package)) ∧
      ((Source.ofProgram program).Compiles ↔ Legible model) ∧
      ∀ (intent : String) (understood : Bool) (slots : Filling),
        (Agrees (SameResult model)
            ((Source.ofProgram program).decode (some intent) understood slots)
            (model.decode intent understood slots) ↔
          Legible model ∧ ∀ exception, ¬ Overflows model intent understood slots exception) ∧
        ∀ exception, Legible model → Overflows model intent understood slots exception →
          (Source.ofProgram program).decode (some intent) understood slots =
            .error (.thrown exception) := by
  obtain ⟨program, made⟩ := Program.exists_ofModel? compiled .kotlin
  have vars := vars_nodup_of_compile compiled
  have compiles := compiles_iff made accepted apart vars
  refine ⟨program, made, ?_, compiles, ?_⟩
  · intro package
    simp only [Model.render?, made, Option.map_some, render]
  · intro intent understood slots
    refine ⟨agrees_iff made accepted apart vars, fun exception legible overflow => ?_⟩
    exact overflow.decode_eq made accepted apart (compiles.mpr legible)

/-- A legible model with a variable of each type; of the texts for its integer the first that is
too wide is `2147483648`. -/
theorem kotlin_decoder_agrees_iff_dial :
    let grammar : Grammar := ⟨[("Line", ["home", "work"])],
      [("Dial", ["dial $pv.TwoDigitInteger:n (at $Line:line)",
        "dial $pv.TwoDigitInteger:n $pv.Alphabetic:key"])]⟩
    let vars : List Variable :=
      [⟨"n", .integer, true⟩, ⟨"line", .element 0, false⟩, ⟨"key", .char, false⟩]
    let model : Model := ⟨[⟨"Dial", vars⟩], [⟨"Line", ["home", "work"]⟩]⟩
    (grammar.compile .kotlin).outcome = .ok model ∧ model.checkNames .kotlin = .ok () ∧
    (model.slots.map (·.name)).Nodup ∧ Legible model ∧
    ∃ program, Program.ofModel? .kotlin model = some program ∧
      (∀ (intent : String) (understood : Bool) (slots : Filling),
        Agrees (SameResult model)
            ((Source.ofProgram program).decode (some intent) understood slots)
            (model.decode intent understood slots) ↔
          ∀ exception, ¬ Overflows model intent understood slots exception) ∧
      (Source.ofProgram program).decode (some "Dial") true (Filling.ofPairs [("n", "2147483648")]) =
        .error (.thrown (.invalidIntegerValue "n" "2147483648")) := by
  intro grammar vars model
  have compiled : (grammar.compile .kotlin).outcome = .ok model := by decide +kernel
  have accepted : model.checkNames .kotlin = .ok () := by decide +kernel
  have apart : (model.slots.map (·.name)).Nodup := by decide
  have legible : Legible model := by decide +kernel
  obtain ⟨program, made, -, -, each⟩ := kotlin_decoder_agrees_iff compiled accepted apart
  refine ⟨compiled, accepted, apart, legible, program, made, ?_, ?_⟩
  · intro intent understood slots
    rw [(each intent understood slots).1]
    exact and_iff_right legible
  · have word : Text.IsWord "2147483648" 2147483648 := Text.word?_eq_some_iff.mp (by decide +kernel)
    have overflow : Overflows model "Dial" true (Filling.ofPairs [("n", "2147483648")])
        (.invalidIntegerValue "n" "2147483648") :=
      ⟨rfl, ⟨"Dial", vars⟩, rfl, .here (.wide (.integer rfl rfl word rfl))⟩
    exact (each _ _ _).2 _ legible overflow

/-- The two decoders do not agree on every inference: `2147483648` and a character above `U+FFFF`
are values for the model only. -/
theorem kotlin_decoder_not_agrees :
    let grammar : Grammar := ⟨[], [("Dial", ["dial $pv.TwoDigitInteger:n"]),
      ("Spell", ["spell $pv.Alphabetic:letter"])]⟩
    let model : Model :=
      ⟨[⟨"Dial", [⟨"n", .integer, true⟩]⟩, ⟨"Spell", [⟨"letter", .char, true⟩]⟩], []⟩
    let number : Filling := Filling.ofPairs [("n", "2147483648")]
    let letter : Filling := Filling.ofPairs [("letter", "𝒜")]
    (grammar.compile .kotlin).outcome = .ok model ∧ model.checkNames .kotlin = .ok () ∧
    (model.slots.map (·.name)).Nodup ∧
    model.decode "Dial" true number = .ok (.understood "Dial" [⟨"n", some (.integer 2147483648)⟩]) ∧
    model.decode "Spell" true letter = .ok (.understood "Spell" [⟨"letter", some (.char '𝒜')⟩]) ∧
    ∃ program, Program.ofModel? .kotlin model = some program ∧
      (Source.ofProgram program).decode (some "Dial") true number =
        .error (.thrown (.invalidIntegerValue "n" "2147483648")) ∧
      (Source.ofProgram program).decode (some "Spell") true letter =
        .error (.thrown (.invalidCharValue "letter" "𝒜")) := by
  refine ⟨by decide +kernel, by decide +kernel, by decide, by decide +kernel, by decide +kernel,
    ⟨[⟨"Dial", "Dial", [⟨"n", "n", .integer, true⟩]⟩,
      ⟨"Spell", "Spell", [⟨"letter", "letter", .char, true⟩]⟩], []⟩, ?_, ?_, ?_⟩
  · decide +kernel
  · decide +kernel
  · decide +kernel

end VoiceGrammar.Grammar
