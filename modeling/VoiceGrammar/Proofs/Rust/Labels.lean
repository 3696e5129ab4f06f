/-
# Labels of elements and fields in Rust

The elements of a slot become the variants of an enumeration, the variables of an intent
the fields of a variant. Each escaped name is taken once, and only then is it written:
`Self` gets an underscore. So labels are told apart except where a name that is escaped to
`Self` stands beside `Self_` (`SelfClash`, `nodup_labels_iff`).

Read as functions, `parse` accepts the elements of its slot and nothing else
(`parse_ofSlot`), and `as_str` gives the first element that has the label
(`asStr_ofSlot`). Hence the two carry every element to itself exactly if no label is
declared twice (`roundTrips_ofSlot_iff`).
-/
import Mathlib.Data.List.Nodup
import VoiceGrammar.Generation
import VoiceGrammar.Proofs.DecoderNames
import VoiceGrammar.Proofs.DecoderPrograms

namespace VoiceGrammar.Decoder.Rust

set_option autoImplicit false

/-! ## Names that meet -/

/-- What names become side by side: each escaped name once, as it is written. -/
def labels (names : List String) : List String :=
  (distinct (names.map Target.rust.reserved.escape)).map Target.rust.identifier

/-- A name that is escaped to `Self` stands beside the name that `Self` is written as. -/
def SelfClash (names : List String) : Prop :=
  ("self" ∈ names ∨ "Self" ∈ names) ∧ "Self_" ∈ names

instance (names : List String) : Decidable (SelfClash names) :=
  inferInstanceAs (Decidable (_ ∧ _))

theorem selfClash_iff (names : List String) :
    SelfClash names ↔ "Self" ∈ names.map Target.rust.reserved.escape ∧
      "Self_" ∈ names.map Target.rust.reserved.escape := by
  simp only [SelfClash, List.mem_map, Target.escape_rust_eq_self_iff,
    Target.escape_rust_eq_underscored_iff, List.mem_cons, List.not_mem_nil, or_false, and_or_left,
    exists_or, exists_eq_right]

/-- **Labels are told apart unless `Self` meets `Self_`.** -/
theorem nodup_labels_iff (names : List String) : (labels names).Nodup ↔ ¬ SelfClash names := by
  rw [labels, List.nodup_map_iff_inj_on (nodup_distinct _), selfClash_iff]
  simp only [mem_distinct]
  constructor
  · rintro apart ⟨self, underscored⟩
    have written : Target.rust.identifier "Self" = Target.rust.identifier "Self_" := by decide
    exact absurd (apart _ self _ underscored written) (by decide)
  · intro clear name listed other listed' same
    rcases Target.identifier_rust_eq_iff.mp same with equal | ⟨rfl, rfl⟩ | ⟨rfl, rfl⟩
    · exact equal
    · exact absurd ⟨listed, listed'⟩ clear
    · exact absurd ⟨listed', listed⟩ clear

/-! ## The functions of an enumeration -/

namespace EnumDecl

variable (decl : EnumDecl)

/-- `parse`, read off its arms. -/
def parse (raw : String) : Eval (Option Datum) := do
  let arm? ← firstArm ParseArm.pattern raw decl.parseArms
  return arm?.map fun arm => .variant arm.typeName arm.label

/-- `as_str`, read off its arms. -/
def asStr : Datum → Eval String
  | .variant typeName label =>
    match decl.textArms.find? fun arm => arm.typeName == typeName && arm.label == label with
    | some arm => denoted arm.text
    | none => .error .stuck
  | _ => .error .stuck

/-- The texts are those of `ELEMENTS`, their labels are the variants, and `parse` accepts
these texts only. -/
structure Represents (elements : List String) : Prop where
  listed : decl.elements.mapM denoted = .ok elements
  variants : decl.variants = elements.map Target.rust.identifier
  parsed : ∀ raw, decl.parse raw = .ok (if raw ∈ elements then
    some (.variant decl.typeName (Target.rust.identifier raw)) else none)

/-- `parse` and `as_str` carry the texts to themselves. -/
def RoundTrips (elements : List String) : Prop :=
  ∀ element ∈ elements, ∃ datum,
    decl.parse element = .ok (some datum) ∧ decl.asStr datum = .ok element

end EnumDecl

theorem Source.parse_eq (source : Source) (decl : EnumDecl) (raw : String) :
    source.parse decl raw = (do
      match ← decl.parse raw with
      | some (.variant typeName label) => return some (← source.element typeName label)
      | _ => return none) := by
  unfold Source.parse EnumDecl.parse
  rcases firstArm ParseArm.pattern raw decl.parseArms with stop | _ | arm <;> rfl

theorem Source.asStr_eq (source : Source) (typeName label : String) :
    source.asStr typeName label = (do (← source.enum typeName).asStr (.variant typeName label)) :=
  rfl

/-- The enumeration of a slot as it is written. -/
def EnumDecl.ofSlot (slot : Slot) : EnumDecl :=
  .ofEnumeration (.ofSlot .rust slot)

section Slots

variable (slot : Slot)

theorem variants_ofSlot :
    (EnumDecl.ofSlot slot).variants = (distinct slot.elements).map Target.rust.identifier := by
  simp [EnumDecl.ofSlot, EnumDecl.ofEnumeration, Enumeration.ofSlot]

theorem elements_ofSlot :
    (EnumDecl.ofSlot slot).elements = (distinct slot.elements).map literal := by
  simp [EnumDecl.ofSlot, EnumDecl.ofEnumeration, Enumeration.ofSlot]

theorem parseArms_ofSlot :
    (EnumDecl.ofSlot slot).parseArms = (distinct slot.elements).map fun element =>
      ⟨literal element, Target.rust.identifier slot.name, Target.rust.identifier element⟩ := by
  simp [EnumDecl.ofSlot, EnumDecl.ofEnumeration, Enumeration.ofSlot]

theorem textArms_ofSlot :
    (EnumDecl.ofSlot slot).textArms = (distinct slot.elements).map fun element =>
      ⟨Target.rust.identifier slot.name, Target.rust.identifier element, literal element⟩ := by
  simp [EnumDecl.ofSlot, EnumDecl.ofEnumeration, Enumeration.ofSlot]

/-- `parse` accepts the elements of the slot and nothing else. -/
theorem parse_ofSlot (raw : String) :
    (EnumDecl.ofSlot slot).parse raw =
      .ok (if raw ∈ slot.elements then
        some (.variant (Target.rust.identifier slot.name) (Target.rust.identifier raw))
      else none) := by
  rw [EnumDecl.parse, parseArms_ofSlot, firstArm_map ParseArm.pattern _ id (fun _ => rfl)]
  by_cases listed : raw ∈ slot.elements
  · have once : ((distinct slot.elements).map id).Nodup := by
      rw [List.map_id]
      exact nodup_distinct slot.elements
    have found : (distinct slot.elements).find? (id · == raw) = some raw :=
      find?_name_eq once (mem_distinct.mpr listed)
    rw [found, if_pos listed]
    rfl
  · have missing : (distinct slot.elements).find? (id · == raw) = none := by
      rw [List.find?_eq_none]
      intro element among same
      exact listed (eq_of_beq same ▸ mem_distinct.mp among)
    rw [missing, if_neg listed]
    rfl

variable {slot}

/-- `as_str` gives the first element that has the label. -/
theorem asStr_ofSlot {label element : String}
    (first : (distinct slot.elements).find? (Target.rust.identifier · == label) = some element) :
    (EnumDecl.ofSlot slot).asStr (.variant (Target.rust.identifier slot.name) label) =
      .ok element := by
  simp only [EnumDecl.asStr, textArms_ofSlot, List.find?_map, Function.comp_def,
    beq_self_eq_true, Bool.true_and, first, Option.map_some]
  exact denoted_literal element

theorem represents_ofSlot : (EnumDecl.ofSlot slot).Represents (distinct slot.elements) where
  listed := by
    rw [elements_ofSlot, mapM_except_eq_ok, List.forall₂_map_left_iff, List.forall₂_same]
    exact fun element _ => denoted_literal element
  variants := variants_ofSlot slot
  parsed raw := by
    simp only [mem_distinct]
    exact parse_ofSlot slot raw

/-- **Elements are carried to themselves exactly if no label is declared twice.** -/
theorem roundTrips_ofSlot_iff :
    (EnumDecl.ofSlot slot).RoundTrips (distinct slot.elements) ↔
      (EnumDecl.ofSlot slot).variants.Nodup := by
  have parsed : ∀ element ∈ distinct slot.elements, (EnumDecl.ofSlot slot).parse element =
      .ok (some (.variant (Target.rust.identifier slot.name) (Target.rust.identifier element))) := by
    intro element listed
    rw [parse_ofSlot, if_pos (mem_distinct.mp listed)]
  rw [variants_ofSlot]
  constructor
  · -- elements with one label have one value, which has one text
    intro back
    rw [List.nodup_map_iff_inj_on (nodup_distinct _)]
    intro element listed other listed' same
    obtain ⟨datum, read, text⟩ := back element listed
    obtain ⟨datum', read', text'⟩ := back other listed'
    rw [parsed element listed, same] at read
    rw [parsed other listed'] at read'
    cases read
    cases read'
    rw [text] at text'
    cases text'
    rfl
  · intro apart element listed
    exact ⟨_, parsed element listed, asStr_ofSlot (find?_name_eq apart listed)⟩

end Slots

/-! ## Whole decoders -/

section Decoders

variable {model : Model} {program : Program}
  (made : Program.ofModel? .rust model = some program)

include made

theorem enums_ofProgram : (Source.ofProgram program).enums = model.slots.map EnumDecl.ofSlot := by
  rw [Source.ofProgram, (Program.ofModel?_eq_some.mp made).1, List.map_map]
  rfl

/-- The fields of a variant are labelled like the variables of its intent. -/
theorem fields_ofProgram :
    List.Forall₂ (fun intent variant => variant.fields.map Prod.fst =
        (intent.vars.map (·.name)).map Target.rust.identifier)
      model.intents (Source.ofProgram program).variants := by
  rw [Source.ofProgram, List.forall₂_map_right_iff]
  refine (Program.ofModel?_eq_some.mp made).2.imp ?_
  intro intent arm written
  have labelled := Arm.labels_of_ofIntent? written
  rw [VariantDecl.ofArm, List.map_map, List.map_map]
  exact labelled

end Decoders

/-- The names that the phrases of an intent mention, in text order. -/
def mentioned (phrases : List String) : List String :=
  (phrases.flatMap Phrase.occurrences).map (·.name)

theorem labels_mentioned {name : String} {phrases : List String} {slots : List Slot}
    {intent : Intent}
    (built : (Intent.build name phrases slots Target.rust.reserved).outcome = .ok intent) :
    (intent.vars.map (·.name)).map Target.rust.identifier = labels (mentioned phrases) := by
  rw [Intent.build_names built, Intent.firstMentions, ← distinct_map, labels, mentioned, List.map_map]
  rfl

end VoiceGrammar.Decoder.Rust

namespace VoiceGrammar.Grammar

open Decoder Decoder.Rust

/-- **Labels differ, and elements are carried to themselves, unless `Self` meets `Self_`.** The text
of a compiled model has an enumeration for each slot and a variant for each intent, in order. The
enumeration lists the escaped elements, each once, has their labels as variants, and `parse` rejects
every other text. No label is declared twice exactly if no element that is escaped to `Self` stands
beside `Self_`, and exactly then `as_str` gives back each element that `parse` has read. The labels
of the fields are those of the variables that the phrases mention, and they differ under the same
condition on the names of these. -/
theorem rust_labels_nodup_iff {grammar : Grammar} {model : Model}
    (compiled : (grammar.compile Target.rust.reserved).outcome = .ok model) :
    ∃ program, Program.ofModel? .rust model = some program ∧
      (∀ package, model.render? .rust package = some (Source.ofProgram program).text) ∧
      List.Forall₂ (fun declared decl =>
          decl.Represents (distinct (declared.2.map Target.rust.reserved.escape)) ∧
          (decl.variants.Nodup ↔ ¬ SelfClash declared.2) ∧
          (decl.RoundTrips (distinct (declared.2.map Target.rust.reserved.escape)) ↔
            ¬ SelfClash declared.2))
        grammar.slots (Source.ofProgram program).enums ∧
      List.Forall₂ (fun declared variant =>
          variant.fields.map Prod.fst = labels (mentioned declared.2) ∧
          ((variant.fields.map Prod.fst).Nodup ↔ ¬ SelfClash (mentioned declared.2)))
        grammar.expressions (Source.ofProgram program).variants := by
  obtain ⟨program, made⟩ := Program.exists_ofModel? compiled .rust
  obtain ⟨slots, intents⟩ := compile_eq_ok compiled
  refine ⟨program, made, ?_, ?_, ?_⟩
  · intro package
    rw [render?_eq_sourceText, made]
    rfl
  · rw [enums_ofProgram made, slots, List.map_map, List.forall₂_map_right_iff, List.forall₂_same]
    intro declared _
    have apart : (EnumDecl.ofSlot (compileSlot Target.rust.reserved declared)).variants.Nodup ↔
        ¬ SelfClash declared.2 := by
      rw [variants_ofSlot]
      exact nodup_labels_iff declared.2
    exact ⟨represents_ofSlot, apart, roundTrips_ofSlot_iff.trans apart⟩
  · refine forall₂_join ?_ (List.Forall₂.flip intents) (fields_ofProgram made)
    intro intent declared variant built fields
    have same := fields.trans (labels_mentioned built)
    exact ⟨same, by rw [same, nodup_labels_iff]⟩

/-- Reserved words that are told apart, in a slot that has one of them twice. -/
theorem rust_labels_nodup_iff_reserved :
    let grammar : Grammar :=
      ⟨[("Word", ["self", "type", "Self"])], [("Go", ["go $Word:self to $Word:type"])]⟩
    ∃ decl variant,
      (∃ model program, (grammar.compile Target.rust.reserved).outcome = .ok model ∧
        model.render? .rust none = some (Source.ofProgram program).text ∧
        (Source.ofProgram program).enums = [decl] ∧
        (Source.ofProgram program).variants = [variant]) ∧
      decl.variants = ["Self_", "Type"] ∧ decl.RoundTrips ["Self", "Type"] ∧
      variant.fields.map Prod.fst = ["Self_", "Type"] := by
  intro grammar
  have compiled : (grammar.compile Target.rust.reserved).outcome = .ok
      ⟨[⟨"Go", [⟨"Self", .element 0, true⟩, ⟨"Type", .element 0, true⟩]⟩],
        [⟨"Word", ["Self", "Type", "Self"]⟩]⟩ := by
    decide +kernel
  have elements : distinct (["self", "type", "Self"].map Target.rust.reserved.escape) =
      ["Self", "Type"] := by
    decide +kernel
  obtain ⟨program, -, rendered, slots, expressions⟩ := rust_labels_nodup_iff compiled
  obtain ⟨decl, decls, ⟨represents, -, carried⟩, noMore, enums⟩ :=
    List.forall₂_cons_left_iff.mp slots
  obtain ⟨variant, others, ⟨fields, -⟩, noMore', variants⟩ :=
    List.forall₂_cons_left_iff.mp expressions
  rw [List.forall₂_nil_left_iff] at noMore noMore'
  subst noMore noMore'
  rw [elements] at represents carried
  refine ⟨decl, variant, ⟨_, program, compiled, rendered none, enums, variants⟩, ?_, ?_, ?_⟩
  · rw [represents.variants]
    decide +kernel
  · exact carried.mpr (by decide +kernel)
  · rw [fields]
    decide +kernel

/-- Labels that meet: the second element is read as the value of the first, whose text is another,
and two fields have one label. -/
theorem rust_labels_not_nodup :
    let grammar : Grammar :=
      ⟨[("Word", ["Self", "Self_"])], [("Go", ["go $Word:Self to $Word:Self_"])]⟩
    ∃ program decl variant,
      (grammar.decoderText .rust none).outcome = .ok (Source.ofProgram program).text ∧
      (Source.ofProgram program).enums = [decl] ∧ (Source.ofProgram program).variants = [variant] ∧
      decl.variants = ["Self_", "Self_"] ∧
      decl.parse "Self_" = .ok (some (.variant "Word" "Self_")) ∧
      decl.asStr (.variant "Word" "Self_") = .ok "Self" ∧
      variant.fields.map Prod.fst = ["Self_", "Self_"] := by
  intro grammar
  have compiled : (grammar.compile Target.rust.reserved).outcome = .ok
      ⟨[⟨"Go", [⟨"Self", .element 0, true⟩, ⟨"Self_", .element 0, true⟩]⟩],
        [⟨"Word", ["Self", "Self_"]⟩]⟩ := by
    decide +kernel
  obtain ⟨program, made⟩ := Program.exists_ofModel? compiled .rust
  obtain ⟨variant, others, fields, noMore, variants⟩ :=
    List.forall₂_cons_left_iff.mp (fields_ofProgram made)
  rw [List.forall₂_nil_left_iff] at noMore
  subst noMore
  refine ⟨program, _, variant, ?_, enums_ofProgram made, variants, ?_, ?_, ?_, ?_⟩
  · exact decoderText_eq_ok.mpr ⟨_, program, compiled, by decide +kernel, made, rfl⟩
  · rw [variants_ofSlot]
    decide +kernel
  · rw [parse_ofSlot]
    decide +kernel
  · exact asStr_ofSlot (by decide +kernel)
  · rw [fields]
    decide +kernel

end VoiceGrammar.Grammar
