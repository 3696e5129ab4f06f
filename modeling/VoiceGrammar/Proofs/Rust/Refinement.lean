/-
# The decoder that is written decodes like the model

`Matches` relates what the function `decode` of a text returns to what decoding with
the model gives. The parts of the text are worth what they stand for: the name of a
slot enumeration finds it (`enum_eq_ok`), `parse` accepts the elements of the slot
(`parse_eq_ok`), `as_str` gives an element back (`asStr_eq_ok`), an initialiser reads
its variable (`initialise_matches`). The two decoders then agree on every inference.

What is assumed of the names (`NamesApart`, and that the names of the intents are
accepted) is what keeps evaluation from being stuck on a name that is declared twice.
-/
import Mathlib.Data.List.Nodup
import VoiceGrammar.Generation
import VoiceGrammar.Proofs.DecodedValues
import VoiceGrammar.Proofs.DecoderPrograms
import VoiceGrammar.Proofs.IntentNames
import VoiceGrammar.Proofs.Rust.Labels

namespace VoiceGrammar.Decoder.Rust

set_option autoImplicit false

/-! ## What agreement is -/

/-- Both sides end with results that are related, or both with the same error. -/
inductive Matches {α β : Type} (related : α → β → Prop) : Eval α → Except DecodeError β → Prop where
  | ok {made : α} {decoded : β} (same : related made decoded) :
      Matches related (.ok made) (.ok decoded)
  | error (error : DecodeError) : Matches related (.error (.returned error)) (.error error)

/-- The same character, the same integer, or the label of the element, from which
`as_str` gives the element back. -/
inductive SameValue (source : Source) : Datum → Value → Prop where
  | char (value : Char) : SameValue source (.char value) (.char value)
  | integer (value : Int) : SameValue source (.integer value) (.integer value)
  | element {slot element : String} (index : Nat)
      (text : source.asStr (Target.rust.identifier slot) (Target.rust.identifier element) =
        .ok element) :
      SameValue source (.variant (Target.rust.identifier slot) (Target.rust.identifier element))
        (.element slot element index)

/-- The field of a variable, under its label and with a value if the variable has one. -/
inductive SameField (source : Source) : String × Val → DecodedVariable → Prop where
  | absent (name : String) :
      SameField source (Target.rust.identifier name, .option none) ⟨name, none⟩
  | optional {name : String} {datum : Datum} {value : Value} (same : SameValue source datum value) :
      SameField source (Target.rust.identifier name, .option (some datum)) ⟨name, some value⟩
  | required {name : String} {datum : Datum} {value : Value} (same : SameValue source datum value) :
      SameField source (Target.rust.identifier name, .plain datum) ⟨name, some value⟩

/-- The variant of the intent, which is that of no other intent, with the fields of the
variables in order and under labels that differ. -/
inductive SameResult (source : Source) (model : Model) : Instance → Decoded → Prop where
  | notUnderstood : SameResult source model ⟨"NotUnderstood", []⟩ .notUnderstood
  | understood {name : String} {fields : List (String × Val)} {vars : List DecodedVariable}
      (own : Target.rust.intentType name ≠ "NotUnderstood")
      (only : ∀ other ∈ model.intents,
        Target.rust.intentType other.name = Target.rust.intentType name → other.name = name)
      (labels : (fields.map Prod.fst).Nodup)
      (values : List.Forall₂ (SameField source) fields vars) :
      SameResult source model ⟨Target.rust.intentType name, fields⟩ (.understood name vars)

/-- The names of a model stay apart when they are written down. -/
structure NamesApart (model : Model) : Prop where
  types : ("Intent" :: "DecodeError" ::
    model.slots.map fun slot => Target.rust.identifier slot.name).Nodup
  elements : ∀ slot ∈ model.slots, ((distinct slot.elements).map Target.rust.identifier).Nodup
  vars : ∀ intent ∈ model.intents,
    (intent.vars.map fun v => Target.rust.identifier v.name).Nodup

theorem Matches.mapM {α β γ δ : Type} {related : γ → δ → Prop} {f : α → Eval γ}
    {g : β → Except DecodeError δ} {items : List α} {values : List β}
    (each : List.Forall₂ (fun item value => Matches related (f item) (g value)) items values) :
    Matches (List.Forall₂ related) (items.mapM f) (values.mapM g) := by
  induction each with
  | nil => exact .ok .nil
  | @cons item value items values one _ ih =>
      rw [List.mapM_cons, List.mapM_cons]
      generalize f item = first at one
      generalize g value = second at one
      cases one with
      | error error => exact .error error
      | ok same =>
          generalize items.mapM f = made at ih
          generalize values.mapM g = decoded at ih
          cases ih with
          | error error => exact .error error
          | ok rest => exact .ok (.cons same rest)

/-! ## Slot enumerations -/

section Enumerations

variable {slot : Slot} {model : Model} {program : Program}
  (made : Program.ofModel? .rust model = some program) (apart : NamesApart model)
  (member : slot ∈ model.slots)

include made apart member

theorem enum_eq_ok :
    (Source.ofProgram program).enum (Target.rust.identifier slot.name) = .ok (.ofSlot slot) := by
  have declared := enums_ofProgram made
  have names : ((Source.ofProgram program).types.map Prod.fst).Nodup := by
    rw [Source.types, declared, List.map_cons, List.map_cons, List.map_map, List.map_map]
    exact apart.types
  have listed : (Target.rust.identifier slot.name, some (EnumDecl.ofSlot slot)) ∈
      (Source.ofProgram program).types := by
    rw [Source.types, declared, List.map_map]
    exact .tail _ (.tail _ (List.mem_map.mpr ⟨slot, member, rfl⟩))
  rw [Source.enum, sole_eq_ok names listed]
  rfl

theorem element_eq_ok {element : String} (listed : element ∈ slot.elements) :
    (Source.ofProgram program).element (Target.rust.identifier slot.name)
        (Target.rust.identifier element) =
      .ok (.variant (Target.rust.identifier slot.name) (Target.rust.identifier element)) := by
  have labels : ((EnumDecl.ofSlot slot).variants.map id).Nodup := by
    rw [List.map_id, variants_ofSlot]
    exact apart.elements slot member
  have label : Target.rust.identifier element ∈ (EnumDecl.ofSlot slot).variants := by
    rw [variants_ofSlot]
    exact List.mem_map_of_mem (mem_distinct.mpr listed)
  have found : sole id (Target.rust.identifier element) (EnumDecl.ofSlot slot).variants =
      .ok (Target.rust.identifier element) := sole_eq_ok labels label
  rw [Source.element, enum_eq_ok made apart member]
  simp [found]

/-- `parse` accepts the elements of the slot and nothing else. -/
theorem parse_eq_ok (raw : String) :
    (Source.ofProgram program).parse (.ofSlot slot) raw =
      .ok (if raw ∈ slot.elements then
        some (.variant (Target.rust.identifier slot.name) (Target.rust.identifier raw))
      else none) := by
  rw [Source.parse_eq, parse_ofSlot]
  by_cases listed : raw ∈ slot.elements
  · simp [listed, element_eq_ok made apart member]
  · simp [listed]

theorem asStr_eq_ok {element : String} (listed : element ∈ slot.elements) :
    (Source.ofProgram program).asStr (Target.rust.identifier slot.name)
      (Target.rust.identifier element) = .ok element := by
  have found := find?_name_eq (apart.elements slot member) (mem_distinct.mpr listed)
  rw [Source.asStr_eq, enum_eq_ok made apart member]
  exact asStr_ofSlot found

end Enumerations

/-! ## Fields -/

section Fields

variable {model : Model}

/-- An optional value on both sides. -/
inductive SameOption (source : Source) : Val → Option Value → Prop where
  | none : SameOption source (.option none) none
  | some {datum : Datum} {value : Value} (same : SameValue source datum value) :
      SameOption source (.option (some datum)) (some value)

/-- A value of type `Result` on the side of the text. -/
inductive Answers {β : Type} (related : Val → β → Prop) : Val → Except DecodeError β → Prop where
  | ok {made : Val} {decoded : β} (same : related made decoded) :
      Answers related (.ok made) (.ok decoded)
  | err (error : DecodeError) : Answers related (.err error) (.error error)

theorem Answers.propagate {β : Type} {related : Val → β → Prop} {source : Source} {slots : Filling}
    {result : Expr} {value : Val} {outcome : Except DecodeError β}
    (answers : Answers related value outcome) (ran : source.eval slots result = .ok value) :
    Matches related (source.eval slots (.propagate result)) outcome := by
  rw [Source.eval, ran]
  cases answers with
  | ok same => exact .ok same
  | err error => exact .error error

theorem slotChar_answers (source : Source) (slots : Filling) {v : Variable} (typed : v.type = .char) :
    Answers (SameOption source) (slotChar slots v.name) (model.given slots v) := by
  unfold slotChar Model.given
  cases slots v.name with
  | none => exact .ok .none
  | some raw =>
      simp only [typed, Model.decodeValue]
      rcases raw.toList with _ | ⟨c, _ | ⟨d, rest⟩⟩
      · exact .err _
      · exact .ok (.some (.char c))
      · exact .err _

theorem slotInteger_answers (source : Source) (slots : Filling) {v : Variable}
    (typed : v.type = .integer) :
    Answers (SameOption source) (slotInteger slots v.name) (model.given slots v) := by
  unfold slotInteger Model.given
  cases slots v.name with
  | none => exact .ok .none
  | some raw =>
      simp only [typed, Model.decodeValue]
      cases Text.word? raw with
      | none => exact .err _
      | some value => exact .ok (.some (.integer value))

variable {program : Program} (made : Program.ofModel? .rust model = some program)
  (apart : NamesApart model) (slots : Filling)

include made apart

theorem slotElement_answers {v : Variable} {position : Nat} {slot : Slot}
    (typed : v.type = .element position) (found : model.slot? position = some slot) :
    ∃ value, slotElement slots v.name slot.name ((Source.ofProgram program).parse (.ofSlot slot)) =
        .ok value ∧
      Answers (SameOption (Source.ofProgram program)) value (model.given slots v) := by
  have member : slot ∈ model.slots := List.mem_of_getElem? found
  unfold slotElement Model.given
  cases slots v.name with
  | none => exact ⟨_, rfl, .ok .none⟩
  | some raw =>
      have listed := @Slot.position?_isSome_iff slot raw
      simp only [typed, Model.decodeValue, found, parse_eq_ok made apart member]
      cases place : slot.position? raw with
      | none =>
          have missing : raw ∉ slot.elements := by simpa [place] using listed
          exact ⟨_, by rw [if_neg missing]; rfl, .err _⟩
      | some index =>
          have member' : raw ∈ slot.elements := by simpa [place] using listed
          exact ⟨_, by rw [if_pos member']; rfl,
            .ok (.some (.element index (asStr_eq_ok made apart member member')))⟩

/-- What a field looks up is what the filling gives the variable. -/
theorem eval_lookup_matches {v : Variable} {reading : Reading}
    (read : Reading.ofType? .rust model v.type = some reading) :
    Matches (SameOption (Source.ofProgram program))
      ((Source.ofProgram program).eval slots (.propagate (.ofReading v.name reading)))
      (model.given slots v) := by
  cases typed : v.type with
  | char =>
      rw [typed] at read
      cases read
      exact (slotChar_answers _ slots typed).propagate
        (by simp [Expr.ofReading, Source.eval, denoted_literal])
  | integer =>
      rw [typed] at read
      cases read
      exact (slotInteger_answers _ slots typed).propagate
        (by simp [Expr.ofReading, Source.eval, denoted_literal])
  | element position =>
      rw [typed] at read
      obtain ⟨slot, found, rfl⟩ := Option.map_eq_some_iff.mp read
      obtain ⟨value, ran, answers⟩ := slotElement_answers made apart slots typed found
      have named : denoted (EnumDecl.ofSlot slot).name = .ok slot.name := denoted_literal slot.name
      have declared := enum_eq_ok made apart (List.mem_of_getElem? found)
      exact answers.propagate
        (by simp [Expr.ofReading, Source.eval, denoted_literal, declared, named, ran])

/-- **An initialiser reads its variable.** -/
theorem initialise_matches {v : Variable} {field : Field}
    (written : Field.ofVariable? .rust model v = some field) :
    Matches (SameField (Source.ofProgram program))
      ((Source.ofProgram program).initialise slots (.ofField field))
      (model.decodeVariable slots v) := by
  obtain ⟨reading, read, rfl⟩ := Option.map_eq_some_iff.mp written
  have looked := eval_lookup_matches made apart slots read
  rw [Model.decodeVariable_eq_given]
  unfold Source.initialise Initialiser.ofField Expr.ofField
  dsimp only
  generalize Expr.propagate (.ofReading v.name reading) = lookup at looked ⊢
  generalize model.given slots v = outcome at looked ⊢
  generalize ran : (Source.ofProgram program).eval slots lookup = looking at looked
  cases needed : v.required with
  | false =>
      simp only [Bool.false_eq_true, ↓reduceIte, ran, false_and]
      cases looked with
      | error error => exact .error error
      | ok same =>
          cases same with
          | none => exact .ok (.absent v.name)
          | some same => exact .ok (.optional same)
  | true =>
      simp only [↓reduceIte, Source.eval, denoted_literal, except_ok_bind, ran, true_and]
      cases looked with
      | error error => exact .error error
      | ok same =>
          cases same with
          | none => exact .error (.missingVariable v.name)
          | some same => exact .ok (.required same)

end Fields

/-! ## Whole inferences -/

section Inferences

variable {model : Model} {program : Program}
  (made : Program.ofModel? .rust model = some program) (accepted : model.checkNames .rust = .ok ())

include made accepted

/-- No two variants of `Intent` have one name. -/
theorem variants_nodup :
    ((⟨"NotUnderstood", []⟩ :: (Source.ofProgram program).variants).map VariantDecl.name).Nodup := by
  obtain ⟨apart, own⟩ := Model.checkNames_eq_ok.mp accepted
  have variants : (Source.ofProgram program).variants.map VariantDecl.name =
      model.intents.map (Target.rust.intentType ·.name) := by
    rw [Source.ofProgram, List.map_map, ← Program.variants_of_ofModel? made]
    rfl
  rw [List.map_cons, variants, List.nodup_cons]
  refine ⟨?_, apart⟩
  intro taken
  obtain ⟨intent, member, same⟩ := List.mem_map.mp taken
  exact own intent member (by rw [same]; exact List.mem_singleton_self _)

theorem construct_eq_ok {decl : VariantDecl}
    (declared : decl ∈ ⟨"NotUnderstood", []⟩ :: (Source.ofProgram program).variants)
    {fields : List (String × Val)} (labels : decl.fields.map Prod.fst = fields.map Prod.fst)
    (apart : (fields.map Prod.fst).Nodup) :
    (Source.ofProgram program).construct decl.name fields = .ok ⟨decl.name, fields⟩ := by
  rw [Source.construct, sole_eq_ok (variants_nodup made accepted) declared]
  simp [labels, apart]

/-- What the arm of an intent makes is what the intent decodes to. -/
theorem arm_matches (apart : NamesApart model) (slots : Filling)
    {intent : Intent} {arm : Arm} (member : intent ∈ model.intents) (listed : arm ∈ program.arms)
    (written : Arm.ofIntent? .rust model intent = some arm) :
    Matches (SameResult (Source.ofProgram program) model)
      ((DecodeArm.ofArm arm).fields.mapM ((Source.ofProgram program).initialise slots) >>=
        (Source.ofProgram program).construct arm.variant)
      ((intent.vars.mapM (model.decodeVariable slots)).map (.understood intent.name)) := by
  obtain ⟨-, variant, each⟩ := Arm.ofIntent?_eq_some.mp written
  have read : Matches (List.Forall₂ (SameField (Source.ofProgram program)))
      ((DecodeArm.ofArm arm).fields.mapM ((Source.ofProgram program).initialise slots))
      (intent.vars.mapM (model.decodeVariable slots)) := by
    refine .mapM (List.forall₂_map_left_iff.mpr (List.Forall₂.flip (each.imp ?_)))
    intro v field one
    exact initialise_matches made apart slots one
  generalize ran : (DecodeArm.ofArm arm).fields.mapM ((Source.ofProgram program).initialise slots) =
    fields? at read ⊢
  generalize intent.vars.mapM (model.decodeVariable slots) = vars? at read ⊢
  cases read with
  | error error => exact .error error
  | @ok fields vars same =>
      have initialised : fields.map Prod.fst = arm.fields.map (·.label) := by
        rw [Source.labels_of_initialise ran, DecodeArm.ofArm, List.map_map]
        rfl
      have labels : (VariantDecl.ofArm arm).fields.map Prod.fst = fields.map Prod.fst := by
        rw [initialised, VariantDecl.ofArm, List.map_map]
        rfl
      have distinct : (fields.map Prod.fst).Nodup := by
        rw [initialised, Arm.labels_of_ofIntent? written]
        exact apart.vars intent member
      have built : (Source.ofProgram program).construct arm.variant fields =
          .ok ⟨arm.variant, fields⟩ :=
        construct_eq_ok made accepted (.tail _ (List.mem_map_of_mem listed)) labels distinct
      obtain ⟨types, own⟩ := Model.checkNames_eq_ok.mp accepted
      rw [except_ok_bind, built, variant]
      refine .ok (.understood ?_ ?_ distinct same)
      · intro taken
        exact own intent member (by rw [taken]; exact List.mem_singleton_self _)
      · intro other among alike
        rw [List.inj_on_of_nodup_map types among member alike]

/-- **The two decoders agree on every inference.** -/
theorem decode_matches (apart : NamesApart model) (intent : String) (understood : Bool)
    (slots : Filling) :
    Matches (SameResult (Source.ofProgram program) model)
      ((Source.ofProgram program).decode intent understood slots)
      (model.decode intent understood slots) := by
  cases understood with
  | false =>
      have built : (Source.ofProgram program).construct "NotUnderstood" [] =
          .ok ⟨"NotUnderstood", []⟩ :=
        construct_eq_ok made accepted (.head _) rfl List.nodup_nil
      simp only [Source.decode, Bool.not_false, ↓reduceIte, built]
      exact .ok .notUnderstood
  | true =>
      have found := Program.find?_rel_intent? made intent
      simp only [Source.decode, Bool.not_true, Bool.false_eq_true, ↓reduceIte, Model.decode]
      rw [show (Source.ofProgram program).arms = program.arms.map DecodeArm.ofArm from rfl,
        firstArm_map DecodeArm.pattern DecodeArm.ofArm (·.key) (fun _ => rfl)]
      generalize named : model.intent? intent = intent? at found ⊢
      generalize keyed : program.arms.find? (·.key == intent) = arm? at found ⊢
      cases found with
      | none => exact .error (.unknownIntent intent)
      | some written =>
          exact arm_matches made accepted apart slots (List.mem_of_find?_eq_some named)
            (List.mem_of_find?_eq_some keyed) written

end Inferences

/-- Two enumerations of one name leave the text without a meaning. -/
example :
    let fields : List Field := [⟨"to", "to", .element "Place" "Place", true⟩]
    let places : Enumeration := ⟨"Place", "Place", [⟨"home", "home"⟩]⟩
    let slots : Filling := Filling.ofPairs [("to", "home")]
    (Source.ofProgram ⟨[⟨"go", "go", fields⟩], [places]⟩).decode "go" true slots =
      .ok ⟨"go", [("to", .plain (.variant "Place" "home"))]⟩ ∧
    (Source.ofProgram ⟨[⟨"go", "go", fields⟩], [places, places]⟩).decode "go" true slots =
      .error .stuck := by
  decide +kernel

end VoiceGrammar.Decoder.Rust

namespace VoiceGrammar.Grammar

open Decoder Decoder.Rust

end VoiceGrammar.Grammar
