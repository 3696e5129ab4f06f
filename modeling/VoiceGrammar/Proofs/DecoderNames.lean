/-
# Names that stand side by side in a decoder

A decoder tries its arms from top to bottom against the name of the intent, so an arm is
reached only if no earlier one has its key. The keys are the names of the intents as they
are declared. Accepted intents have types that differ, so their names do, and each arm is
the one that its own key finds (`Program.reaches`).

The names of slots are not checked. A decoder declares a type for each of them, beside
`Intent` and the type of its errors (`Program.declaredTypes_eq`). These types differ
exactly if no slot is called like one of the two and no two slots are written alike. Two
names are written alike if they are equal, if one is a reserved word and the other its
capitalized form, or, in Rust, where `Self` meets `Self_` (`Target.intentType_eq_iff`).
-/
import VoiceGrammar.Proofs.IntentNames
import VoiceGrammar.Proofs.Kotlin.Meaning
import VoiceGrammar.Proofs.ReservedNames
import VoiceGrammar.Proofs.Rust.Meaning

namespace VoiceGrammar

set_option autoImplicit false

/-! ## Arms -/

namespace Decoder

/-- The text of the tree of a program. -/
def sourceText (target : Target) (package : Option String) (program : Program) : String :=
  match target with
  | .rust => (Rust.Source.ofProgram program).text
  | .kotlin => (Kotlin.Source.ofProgram program).text package

/-- For an intent of that name the text runs this arm. -/
def Program.Reaches (program : Program) (target : Target) (intent : String) (arm : Arm) : Prop :=
  match target with
  | .rust => Rust.firstArm Rust.DecodeArm.pattern intent (Rust.Source.ofProgram program).arms =
      .ok (some (.ofArm arm))
  | .kotlin => (Kotlin.Source.ofProgram program).branch? intent = some (.ofArm arm)

theorem render?_eq_sourceText (model : Model) (target : Target) (package : Option String) :
    model.render? target package =
      (Program.ofModel? target model).map (sourceText target package) := by
  cases target with
  | rust =>
      simp only [Model.render?, Rust.render]
      rfl
  | kotlin =>
      simp only [Model.render?, Kotlin.render]
      rfl

/-- An arm whose key no other arm has is reached by it. -/
theorem Program.reaches {program : Program} (apart : (program.arms.map (·.key)).Nodup) {arm : Arm}
    (listed : arm ∈ program.arms) (target : Target) : program.Reaches target arm.key arm := by
  have found : program.arms.find? (·.key == arm.key) = some arm := find?_name_eq apart listed
  cases target with
  | rust =>
      rw [Reaches, Rust.Source.ofProgram,
        Rust.firstArm_map Rust.DecodeArm.pattern Rust.DecodeArm.ofArm (·.key) (fun _ => rfl), found]
      rfl
  | kotlin =>
      rw [Reaches, Kotlin.branch?_ofProgram, found]
      rfl

end Decoder

open Decoder in
/-- A text is written if the grammar compiles and the names of its intents are accepted. -/
theorem Grammar.decoderText_eq_ok {grammar : Grammar} {target : Target} {package : Option String}
    {text : String} :
    (grammar.decoderText target package).outcome = .ok text ↔
      ∃ model program, (grammar.compile target.reserved).outcome = .ok model ∧
        model.checkNames target = .ok () ∧ Program.ofModel? target model = some program ∧
        sourceText target package program = text := by
  unfold decoderText
  rw [Logged.bind_eq_ok]
  simp only [Logged.mapError_eq_ok, Logged.bind_eq_ok, exists_and_left]
  refine exists_congr fun model => and_congr_right fun compiled => ?_
  rw [← Option.map_eq_some_iff, ← render?_eq_sourceText]
  cases model.checkNames target with
  | error error => simp [Logged.ofExcept, Except.mapError]
  | ok value =>
      cases model.render? target package <;> simp [Logged.ofExcept, Except.mapError, Logged.fail]

/-- Types that differ belong to names that differ. -/
theorem Model.TypesUsable.names_nodup {target : Target} {intents : List Intent}
    (usable : TypesUsable target intents) : (intents.map (·.name)).Nodup := by
  refine List.Nodup.of_map target.intentType ?_
  rw [List.map_map]
  exact usable.1

open Decoder in
/-- **The first intent whose type cannot be used is blamed, and else every arm is reached.** The
names of a model are accepted exactly if its intents have usable types. Otherwise the error is about
the first intent whose type the decoder declares itself or an earlier intent has; of the earlier
ones with that type it names the first. So in a decoder that is written the keys of the arms are
the names of the intents, no two of which are equal, and each arm is reached by its key. -/
theorem Target.checkNames_blames_first_culprit (target : Target) :
    (∀ model : Model,
      (model.checkNames target = .ok () ↔ Model.TypesUsable target model.intents) ∧
      ∀ error, model.checkNames target = .error error ↔
        ∃ before intent after, model.intents = before ++ intent :: after ∧
          Model.TypesUsable target before ∧ Model.Unusable target before intent error) ∧
    ∀ (grammar : Grammar) (package : Option String) (text : String),
      (grammar.decoderText target package).outcome = .ok text →
      (grammar.expressions.map Prod.fst).Nodup ∧
      ∃ model program, (grammar.compile target.reserved).outcome = .ok model ∧
        Program.ofModel? target model = some program ∧
        text = sourceText target package program ∧
        program.arms.map (·.key) = grammar.expressions.map Prod.fst ∧
        ∀ arm ∈ program.arms, program.Reaches target arm.key arm := by
  refine ⟨fun model => ⟨Model.checkNames_eq_ok, fun _ => Model.checkNames_eq_error⟩, ?_⟩
  intro grammar package text generated
  obtain ⟨model, program, compiled, accepted, made, rfl⟩ := Grammar.decoderText_eq_ok.mp generated
  have keys : program.arms.map (·.key) = grammar.expressions.map Prod.fst :=
    (Program.keys_of_ofModel? made).trans (Grammar.names_of_compile compiled)
  have apart : (program.arms.map (·.key)).Nodup := by
    rw [Program.keys_of_ofModel? made]
    exact (Model.checkNames_eq_ok.mp accepted).names_nodup
  refine ⟨keys ▸ apart, model, program, compiled, made, rfl, keys, ?_⟩
  intro arm listed
  exact Program.reaches apart listed target

/-! ## Types -/

/-- The types at the top level of the text of a program. -/
def Decoder.Program.declaredTypes (program : Program) (target : Target) : List String :=
  match target with
  | .rust => (Rust.Source.ofProgram program).types.map Prod.fst
  | .kotlin => (Kotlin.Source.ofProgram program).topLevelTypes

theorem Decoder.Program.declaredTypes_eq {target : Target} {model : Model} {program : Program}
    (made : Program.ofModel? target model = some program) :
    program.declaredTypes target =
      target.ownTypes ++ model.slots.map (target.identifier ·.name) := by
  have enumerations := (Program.ofModel?_eq_some.mp made).1
  cases target with
  | rust =>
      simp only [declaredTypes, Rust.Source.types, Rust.Source.ofProgram, enumerations,
        List.map_cons, List.map_map]
      rfl
  | kotlin =>
      simp only [declaredTypes, Kotlin.Source.topLevelTypes, Kotlin.Source.ofProgram, enumerations,
        List.map_map]
      rfl

namespace Target

/-- Two names that are written alike. -/
def Alike (target : Target) (name other : String) : Prop :=
  name = other ∨ target.reserved.Merged name other ∨ target.reserved.Merged other name ∨
    target = rust ∧ (name ∈ ["self", "Self"] ∧ other = "Self_" ∨
      other ∈ ["self", "Self"] ∧ name = "Self_")

theorem identifier_rust_eq_iff {name other : String} :
    rust.identifier name = rust.identifier other ↔
      name = other ∨ name = "Self" ∧ other = "Self_" ∨ other = "Self" ∧ name = "Self_" := by
  have self : rust.identifier "Self" = "Self_" := rfl
  have kept : ∀ name ≠ "Self", rust.identifier name = name := by
    intro name free
    simp [identifier, free]
  by_cases left : name = "Self" <;> by_cases right : other = "Self"
  · simp [left, right]
  · rw [left, self, kept other right]
    grind
  · rw [right, self, kept name left]
    grind
  · simp [kept name left, kept other right, left, right]

/-- A capitalized name comes from itself, or from its small form if that is reserved. -/
theorem escape_eq_capitalize_iff (target : Target) {name lower : String}
    (small : ReservedWords.startsSmall lower = true) :
    target.reserved.escape name = ReservedWords.capitalize lower ↔
      name = ReservedWords.capitalize lower ∨ name = lower ∧ lower ∈ target.reserved.words := by
  have words := target.reserved_small
  by_cases word : name ∈ target.reserved.words
  · rw [ReservedWords.escape_of_mem word]
    constructor
    · intro same
      have back := ReservedWords.capitalize_inj (words name word) small same
      exact .inr ⟨back, back ▸ word⟩
    · rintro (same | ⟨rfl, -⟩)
      · have capital := ReservedWords.not_startsSmall_capitalize small
        rw [← same, words name word] at capital
        cases capital
      · rfl
  · rw [ReservedWords.escape_of_not_mem word]
    refine ⟨.inl, ?_⟩
    rintro (same | ⟨rfl, listed⟩)
    · exact same
    · exact absurd listed word

/-- Such a name whose small form is not reserved comes from itself. -/
theorem escape_eq_iff {target : Target} {name own lower : String}
    (small : ReservedWords.startsSmall lower = true) (capital : own = ReservedWords.capitalize lower)
    (free : lower ∉ target.reserved.words) : target.reserved.escape name = own ↔ name = own := by
  rw [capital, target.escape_eq_capitalize_iff small]
  simp [free]

theorem escape_rust_eq_self_iff {name : String} :
    rust.reserved.escape name = "Self" ↔ name ∈ ["self", "Self"] := by
  have capital : "Self" = ReservedWords.capitalize "self" := by decide +kernel
  have listed : "self" ∈ rust.reserved.words := by decide +kernel
  rw [capital, escape_eq_capitalize_iff rust (by decide +kernel), ← capital]
  simp [listed, or_comm]

theorem escape_rust_eq_underscored_iff {name : String} :
    rust.reserved.escape name = "Self_" ↔ name = "Self_" := by
  have capital : "Self_" = ReservedWords.capitalize "self_" := by decide +kernel
  exact escape_eq_iff (by decide +kernel) capital (by decide +kernel)

theorem intentType_eq_iff {target : Target} {name other : String} :
    target.intentType name = target.intentType other ↔ target.Alike name other := by
  have merged : target.reserved.escape name = target.reserved.escape other ↔ _ :=
    ReservedWords.escape_eq_escape_iff target.reserved_small
  cases target with
  | kotlin => simpa [Alike, intentType, identifier] using merged
  | rust =>
      simp only [Alike, intentType, identifier_rust_eq_iff, merged, escape_rust_eq_self_iff,
        escape_rust_eq_underscored_iff, true_and]
      tauto

/-- Only its own name is written like one of these. -/
theorem intentType_eq_own_iff {target : Target} {name own : String}
    (listed : own ∈ target.ownTypes) : target.intentType name = own ↔ name = own := by
  have lowers : ∀ own ∈ target.ownTypes, (own ≠ "Self" ∧ own ≠ "Self_") ∧
      ∃ lower ∈ ["intent", "decodeError", "intentDecodingException"],
        own = ReservedWords.capitalize lower ∧ ReservedWords.startsSmall lower = true ∧
        lower ∉ target.reserved.words := by
    cases target <;> decide +kernel
  obtain ⟨⟨notSelf, notUnderscored⟩, lower, -, capital, small, free⟩ := lowers own listed
  have escaped : target.reserved.escape name = own ↔ name = own := escape_eq_iff small capital free
  cases target with
  | kotlin => exact escaped
  | rust =>
      have kept : rust.identifier own = own := by simp [identifier, notSelf]
      calc rust.intentType name = own
        _ ↔ rust.identifier (rust.reserved.escape name) = rust.identifier own := by
            rw [kept, intentType]
        _ ↔ rust.reserved.escape name = own := by
            simp [identifier_rust_eq_iff, notSelf, notUnderscored]
        _ ↔ name = own := escaped

end Target

open Decoder in
/-- **The types of a decoder differ exactly if its slots are told apart.** The text declares
`Intent`, the type of its errors and a type for each slot. No two of them have one name if and only
if no slot is called like one of the first two and no two slots have names that are written
alike. -/
theorem Grammar.declared_types_nodup_iff {grammar : Grammar} {target : Target}
    {package : Option String} {text : String}
    (generated : (grammar.decoderText target package).outcome = .ok text) :
    ∃ model program, (grammar.compile target.reserved).outcome = .ok model ∧
      Program.ofModel? target model = some program ∧ text = sourceText target package program ∧
      program.declaredTypes target =
        target.ownTypes ++ grammar.slots.map (target.intentType ·.1) ∧
      ((program.declaredTypes target).Nodup ↔
        (grammar.slots.map Prod.fst).Pairwise (fun name other => ¬ target.Alike name other) ∧
        ∀ name ∈ grammar.slots.map Prod.fst, name ∉ target.ownTypes) := by
  obtain ⟨model, program, compiled, -, made, rfl⟩ := decoderText_eq_ok.mp generated
  have declared : program.declaredTypes target =
      target.ownTypes ++ (grammar.slots.map Prod.fst).map target.intentType := by
    rw [Program.declaredTypes_eq made, (compile_eq_ok compiled).1, List.map_map, List.map_map]
    rfl
  refine ⟨model, program, compiled, made, rfl, ?_, ?_⟩
  · rw [declared, List.map_map]
    rfl
  · have two : target.ownTypes.Nodup := by cases target <;> decide
    have slotsApart : ((grammar.slots.map Prod.fst).map target.intentType).Nodup ↔
        (grammar.slots.map Prod.fst).Pairwise fun name other => ¬ target.Alike name other := by
      rw [List.Nodup, List.pairwise_map]
      simp only [ne_eq, Target.intentType_eq_iff]
    have fresh : List.Disjoint target.ownTypes
          ((grammar.slots.map Prod.fst).map target.intentType) ↔
        ∀ name ∈ grammar.slots.map Prod.fst, name ∉ target.ownTypes := by
      constructor
      · intro disjoint name listed own
        exact disjoint own
          (List.mem_map.mpr ⟨name, listed, (Target.intentType_eq_own_iff own).mpr rfl⟩)
      · intro clear own listed taken
        obtain ⟨name, member, same⟩ := List.mem_map.mp taken
        exact clear name member ((Target.intentType_eq_own_iff listed).mp same ▸ listed)
    rw [declared, List.nodup_append', slotsApart, fresh]
    exact and_iff_right two

namespace Grammar

open Decoder

/-- Slots that are told apart, one of them with a reserved name and one that gets an
underscore. -/
theorem declared_types_nodup_iff_self :
    let grammar : Grammar := ⟨[("type", ["big"]), ("Self", ["me"])], [("Go", ["go $Type:size"])]⟩
    ∃ text program, (grammar.decoderText .rust none).outcome = .ok text ∧
      text = sourceText .rust none program ∧
      program.declaredTypes .rust = ["Intent", "DecodeError", "Type", "Self_"] ∧
      (program.declaredTypes .rust).Nodup := by
  intro grammar
  have compiled : (grammar.compile Target.rust.reserved).outcome = .ok
      ⟨[⟨"Go", [⟨"size", .element 0, true⟩]⟩], [⟨"Type", ["big"]⟩, ⟨"Self", ["me"]⟩]⟩ := by
    decide +kernel
  obtain ⟨program, made⟩ := Program.exists_ofModel? compiled .rust
  have generated : (grammar.decoderText .rust none).outcome = .ok (sourceText .rust none program) :=
    decoderText_eq_ok.mpr ⟨_, program, compiled, by decide +kernel, made, rfl⟩
  obtain ⟨_, other, -, -, same, types, -⟩ := declared_types_nodup_iff generated
  have listed : other.declaredTypes .rust = ["Intent", "DecodeError", "Type", "Self_"] := by
    rw [types]
    decide +kernel
  exact ⟨_, other, generated, same, listed, by rw [listed]; decide⟩

/-- The types of a decoder that is written need not differ: a slot may be called `Intent`, and a
reserved word may meet its capitalized form. -/
theorem declared_types_not_nodup :
    let intent : Grammar := ⟨[("Intent", ["a"])], [("Go", ["go $Intent:x"])]⟩
    let truth : Grammar := ⟨[("true", ["a"]), ("True", ["b"])], [("Go", ["go"])]⟩
    (∃ program, (intent.decoderText .rust none).outcome = .ok (sourceText .rust none program) ∧
      program.declaredTypes .rust = ["Intent", "DecodeError", "Intent"]) ∧
    ∃ program, (truth.decoderText .kotlin none).outcome = .ok (sourceText .kotlin none program) ∧
      program.declaredTypes .kotlin = ["Intent", "IntentDecodingException", "True", "True"] := by
  intro intent truth
  have compiled : (intent.compile Target.rust.reserved).outcome = .ok
      ⟨[⟨"Go", [⟨"x", .element 0, true⟩]⟩], [⟨"Intent", ["a"]⟩]⟩ := by decide +kernel
  have compiled' : (truth.compile Target.kotlin.reserved).outcome = .ok
      ⟨[⟨"Go", []⟩], [⟨"True", ["a"]⟩, ⟨"True", ["b"]⟩]⟩ := by decide +kernel
  obtain ⟨program, made⟩ := Program.exists_ofModel? compiled .rust
  obtain ⟨program', made'⟩ := Program.exists_ofModel? compiled' .kotlin
  refine ⟨⟨program, ?_, Program.declaredTypes_eq made⟩,
    program', ?_, Program.declaredTypes_eq made'⟩
  · exact decoderText_eq_ok.mpr ⟨_, program, compiled, by decide +kernel, made, rfl⟩
  · exact decoderText_eq_ok.mpr ⟨_, program', compiled', by decide +kernel, made', rfl⟩

end Grammar

end VoiceGrammar
