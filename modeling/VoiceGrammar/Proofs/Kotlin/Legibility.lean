/-
# When the Kotlin that is written compiles

The check of intent names keeps the types nested in `Intent` apart, and the names of
slots are apart by assumption. What is left to go wrong is that a name hides one that the
text relies on. `Legible` says of a model that this does not happen, in terms of its slots,
intents and variables; the text of its decoder compiles exactly then (`compiles_iff`), as
far as compiling is considered here.

The parts of the check are settled one by one: which types the text common to all
decoders finds (`fixed_iff`), whether an argument fits its parameter (`passes_iff`), and
whether a branch names what it is meant to name (`hidden_eq_false_iff`).
-/
import VoiceGrammar.Proofs.DecoderPrograms
import VoiceGrammar.Proofs.IntentNames
import VoiceGrammar.Proofs.Kotlin.Meaning

namespace VoiceGrammar.Decoder.Kotlin

set_option autoImplicit false

/-- Types outside `Intent` on which `from` relies. -/
def reliedOn : List String :=
  ["Intent", "IntentDecodingException", "String", "Boolean", "Map"]

/-- The name of the type of a field, null aside. -/
def valueType (reading : Reading) : String :=
  (baseType reading).name

/-- The types nested in `Intent`. -/
def nestedNames (model : Model) : List String :=
  "NotUnderstood" :: "Companion" :: model.intents.map (Target.kotlin.intentType ·.name)

/-- The branch of an intent finds the intent and the types of its variables. -/
structure Visible (model : Model) (intent : Intent) : Prop where
  /-- An intent without variables does not have the name of a parameter of `from`. -/
  alone : intent.vars = [] →
    Target.kotlin.intentType intent.name ∉ ["intent", "isUnderstood", "slots"]
  /-- An intent with one variable does not have the name of the method with one argument. -/
  called : intent.vars.length = 1 → Target.kotlin.intentType intent.name ≠ "equals"
  /-- No type of a variable has the name of an intent. -/
  types : ∀ v ∈ intent.vars, ∀ reading ∈ Reading.ofType? .kotlin model v.type,
    valueType reading ∉ nestedNames model

/-- No name of the model hides one that the text of its decoder relies on. This is all that is asked:
names need not be identifiers, and an intent with one variable may be called `to`, like a function
of the library that is called in the same way. -/
structure Legible (model : Model) : Prop where
  /-- No slot has the name of a type that all decoders declare or take from the library. -/
  slots : ∀ slot ∈ model.slots, slot.name ∉ Target.kotlin.ownTypes ++ libraryTypes
  /-- No intent has the name of a type on which `from` relies. -/
  intents : ∀ intent ∈ model.intents, Target.kotlin.intentType intent.name ∉ reliedOn
  branches : ∀ intent ∈ model.intents, Visible model intent

instance (model : Model) (intent : Intent) : Decidable (Visible model intent) :=
  decidable_of_iff ((intent.vars = [] →
        Target.kotlin.intentType intent.name ∉ ["intent", "isUnderstood", "slots"]) ∧
      (intent.vars.length = 1 → Target.kotlin.intentType intent.name ≠ "equals") ∧
      ∀ v ∈ intent.vars, ∀ reading ∈ Reading.ofType? .kotlin model v.type,
        valueType reading ∉ nestedNames model)
    ⟨fun ⟨alone, called, types⟩ => ⟨alone, called, types⟩,
      fun visible => ⟨visible.alone, visible.called, visible.types⟩⟩

instance (model : Model) : Decidable (Legible model) :=
  decidable_of_iff ((∀ slot ∈ model.slots, slot.name ∉ Target.kotlin.ownTypes ++ libraryTypes) ∧
      (∀ intent ∈ model.intents, Target.kotlin.intentType intent.name ∉ reliedOn) ∧
      ∀ intent ∈ model.intents, Visible model intent)
    ⟨fun ⟨slots, intents, branches⟩ => ⟨slots, intents, branches⟩,
      fun legible => ⟨legible.slots, legible.intents, legible.branches⟩⟩

/-! ## Names of types -/

namespace Source

variable {source : Source} {scope : Scope} {name : String}

theorem resolve_topLevel_iff : source.resolve scope name = some (.topLevel name) ↔
    name ∈ source.topLevelTypes ∧ (scope = .intent → name ∉ source.nestedTypes) := by
  unfold resolve
  by_cases hidden : scope = .intent ∧ name ∈ source.nestedTypes
  · simp [hidden]
  · by_cases declared : name ∈ source.topLevelTypes
    · have visible : scope = .intent → name ∉ source.nestedTypes := fun inside nested =>
        hidden ⟨inside, nested⟩
      simpa [hidden, declared] using visible
    · by_cases known : name ∈ libraryTypes <;> simp [hidden, declared, known]

theorem resolve_library_iff (known : name ∈ libraryTypes) :
    source.resolve scope name = some (.library name) ↔
      name ∉ source.topLevelTypes ∧ (scope = .intent → name ∉ source.nestedTypes) := by
  unfold resolve
  by_cases hidden : scope = .intent ∧ name ∈ source.nestedTypes
  · simp [hidden]
  · by_cases declared : name ∈ source.topLevelTypes
    · simp [hidden, declared]
    · have visible : scope = .intent → name ∉ source.nestedTypes := fun inside nested =>
        hidden ⟨inside, nested⟩
      simpa [hidden, declared, known] using visible

/-- The text common to all decoders finds the types that it names if no slot hides the library and
no intent hides what `from` relies on. -/
theorem fixed_iff : (∀ type ∈ fixedTypes, source.resolve type.1 type.2.name = some type.2) ↔
    (∀ name ∈ libraryTypes, name ∉ source.topLevelTypes) ∧
    ∀ name ∈ reliedOn, name ∉ source.nestedTypes := by
  constructor
  · intro found
    constructor
    · have used : ∀ name ∈ libraryTypes, (Scope.file, Classifier.library name) ∈ fixedTypes ∨
          (Scope.intent, Classifier.library name) ∈ fixedTypes := by decide
      intro name known
      rcases used name known with listed | listed
      · exact ((resolve_library_iff known).mp (found _ listed)).1
      · exact ((resolve_library_iff known).mp (found _ listed)).1
    · have used : ∀ name ∈ reliedOn, (Scope.intent, Classifier.topLevel name) ∈ fixedTypes ∨
          name ∈ libraryTypes ∧ (Scope.intent, Classifier.library name) ∈ fixedTypes := by decide
      intro name relied
      rcases used name relied with listed | ⟨known, listed⟩
      · exact (resolve_topLevel_iff.mp (found _ listed)).2 rfl
      · exact ((resolve_library_iff known).mp (found _ listed)).2 rfl
  · rintro ⟨free, unhidden⟩ ⟨scope, classifier⟩ listed
    have inside : ∀ type ∈ fixedTypes, type.1 = .intent → type.2.name ∈ reliedOn := by decide
    have visible : scope = .intent → classifier.name ∉ source.nestedTypes := fun within =>
      unhidden _ (inside _ listed within)
    have kinds : ∀ type ∈ fixedTypes,
        (type.2 = .topLevel type.2.name ∧ type.2.name ∈ Target.kotlin.ownTypes) ∨
        (type.2 = .library type.2.name ∧ type.2.name ∈ libraryTypes) := by decide
    rcases kinds _ listed with ⟨kind, own⟩ | ⟨kind, known⟩
    · have declared : classifier.name ∈ source.topLevelTypes := List.mem_append_left _ own
      rw [kind]
      exact resolve_topLevel_iff.mpr ⟨declared, visible⟩
    · rw [kind]
      exact (resolve_library_iff known).mpr ⟨free _ known, visible⟩

/-! ## Arguments and branches -/

theorem fits_declaredType_iff {classifier : Classifier} {type : TypeRef} :
    (∃ declared ∈ source.declaredType type,
      StaticType.Fits ⟨classifier, type.nullable⟩ declared) ↔
      source.resolve .intent type.base.name = some classifier := by
  unfold declaredType
  constructor
  · rintro ⟨declared, given, same, -⟩
    obtain ⟨found, resolved, rfl⟩ := Option.map_eq_some_iff.mp given
    rw [resolved]
    exact congrArg some same.symm
  · intro resolved
    exact ⟨⟨classifier, type.nullable⟩, by rw [resolved]; rfl, rfl, id⟩

/-- What is looked up may be null, and is not once it is required. -/
theorem typeOf_ofField (field : Field) :
    source.typeOf (.ofField field) = (source.typeOf (.ofReading field.key field.reading)).map
      fun found => ⟨found.classifier, !field.required⟩ := by
  rcases field with ⟨key, label, reading, required⟩
  cases reading <;> cases required <;>
    simp [Expr.ofField, Expr.ofReading, typeOf, Option.map_map, Function.comp_def]

theorem isEnum_iff {classifier : Classifier} :
    source.isEnum classifier = true ↔ ∃ decl ∈ source.enums, classifier = .topLevel decl.name := by
  simp [isEnum, @eq_comm _ classifier]

theorem name_of_resolve {classifier : Classifier}
    (found : source.resolve scope name = some classifier) : classifier.name = name := by
  unfold resolve at found
  split_ifs at found <;> cases found <;> rfl

/-- What is looked up has the type that is declared for it, unless an intent has that name. -/
theorem typeOf_ofReading_iff {key : String} {reading : Reading}
    (free : ∀ name ∈ libraryTypes, name ∉ source.topLevelTypes)
    (enumerated : ∀ typeName slot, reading = .element typeName slot →
      typeName ∈ source.enums.map (·.name)) :
    (∃ given ∈ source.typeOf (.ofReading key reading),
      source.resolve .intent (valueType reading) = some given.classifier) ↔
      valueType reading ∉ source.nestedTypes := by
  have primitive : ∀ name ∈ libraryTypes,
      (∃ given ∈ (source.resolve .file name).map (StaticType.mk · true),
        source.resolve .intent name = some given.classifier) ↔ name ∉ source.nestedTypes := by
    intro name known
    have outside : source.resolve .file name = some (.library name) :=
      (resolve_library_iff known).mpr ⟨free name known, nofun⟩
    simp [outside, resolve_library_iff known, free name known]
  cases reading with
  | char => exact primitive "Char" (by decide)
  | integer => exact primitive "Int" (by decide)
  | element typeName slot =>
      obtain ⟨decl, declared, rfl⟩ := List.mem_map.mp (enumerated typeName slot rfl)
      have visible : source.resolve .intent decl.name = some (.topLevel decl.name) ↔
          decl.name ∉ source.nestedTypes := by
        have listed : decl.name ∈ source.topLevelTypes :=
          List.mem_cons_of_mem _ (List.mem_cons_of_mem _ (List.mem_map_of_mem declared))
        simp [resolve_topLevel_iff, listed]
      rw [← show source.resolve .intent decl.name = some (.topLevel decl.name) ↔
          valueType (.element decl.name slot) ∉ source.nestedTypes from visible]
      constructor
      · rintro ⟨given, typed, found⟩
        obtain ⟨classifier, kept, rfl⟩ := Option.map_eq_some_iff.mp typed
        obtain ⟨other, -, rfl⟩ := isEnum_iff.mp (Option.filter_eq_some_iff.mp kept).2
        have same : other.name = decl.name := name_of_resolve found
        rw [← same] at found ⊢
        exact found
      · intro found
        refine ⟨⟨.topLevel decl.name, true⟩, ?_, found⟩
        have enum : source.isEnum (.topLevel decl.name) = true :=
          isEnum_iff.mpr ⟨decl, declared, rfl⟩
        simp [Expr.ofReading, typeOf, found, enum]

theorem denoted_of_mem_literals {field : Field} :
    ∀ written ∈ (Expr.ofField field).literals, (denoted written).isSome = true := by
  rcases field with ⟨key, label, reading, required⟩
  cases reading <;> cases required <;>
    simp [Expr.ofField, Expr.ofReading, Expr.literals, denoted_literal]

/-- An argument fits its parameter unless an intent has the name of its type. -/
theorem passes_iff {field : Field} (free : ∀ name ∈ libraryTypes, name ∉ source.topLevelTypes)
    (enumerated : ∀ typeName slot, field.reading = .element typeName slot →
      typeName ∈ source.enums.map (·.name)) :
    source.Passes (.ofField field) (.ofField field) ↔
      valueType field.reading ∉ source.nestedTypes := by
  rw [← typeOf_ofReading_iff free enumerated, Passes, typeOf_ofField]
  constructor
  · rintro ⟨-, given, typed, fits⟩
    obtain ⟨found, looked, rfl⟩ := Option.map_eq_some_iff.mp typed
    exact ⟨found, looked, fits_declaredType_iff.mp fits⟩
  · rintro ⟨found, looked, resolved⟩
    refine ⟨denoted_of_mem_literals, ⟨found.classifier, !field.required⟩, ?_,
      fits_declaredType_iff.mpr resolved⟩
    exact Option.map_eq_some_iff.mpr ⟨found, looked, rfl⟩

end Source

theorem hidden_eq_false_iff {arm : Arm} : (Branch.ofArm arm).hidden = false ↔
    (arm.fields = [] → arm.variant ∉ ["intent", "isUnderstood", "slots"]) ∧
      (arm.fields.length = 1 → arm.variant ≠ "equals") := by
  rcases arm with ⟨key, variant, fields⟩
  match fields with
  | [] => simp [Branch.ofArm, Branch.hidden]
  | [_] => simp [Branch.ofArm, Branch.hidden]
  | _ :: _ :: _ => simp [Branch.ofArm, Branch.hidden]

/-! ## The decoder of a model -/

/-- The type of an arm is found under its name. -/
theorem find?_intents {program : Program} (apart : (Source.ofProgram program).nestedTypes.Nodup)
    {arm : Arm} (listed : arm ∈ program.arms) :
    (Source.ofProgram program).intents.find? (·.name == arm.variant) = some (.ofArm arm) := by
  have names : ((Source.ofProgram program).intents.map (·.name)).Nodup :=
    (List.nodup_cons.mp (List.nodup_cons.mp apart).2).2
  have declared : IntentDecl.ofArm arm ∈ (Source.ofProgram program).intents :=
    List.mem_map_of_mem listed
  exact find?_name_eq names declared

section Decoders

variable {model : Model} {program : Program}
  (made : Program.ofModel? .kotlin model = some program)

include made

theorem nestedTypes_eq : (Source.ofProgram program).nestedTypes = nestedNames model := by
  rw [Source.nestedTypes, nestedNames, ← Program.variants_of_ofModel? made, Source.ofProgram,
    List.map_map]
  rfl

theorem enum_names_eq :
    (Source.ofProgram program).enums.map (·.name) = model.slots.map (·.name) := by
  rw [Source.ofProgram, (Program.ofModel?_eq_some.mp made).1, List.map_map, List.map_map]
  rfl

theorem topLevelTypes_eq :
    (Source.ofProgram program).topLevelTypes = Target.kotlin.ownTypes ++ model.slots.map (·.name) := by
  rw [← enum_names_eq made]
  rfl

theorem topLevel_iff (apart : (model.slots.map (·.name)).Nodup) :
    (Source.ofProgram program).topLevelTypes.Nodup ∧
      (∀ name ∈ libraryTypes, name ∉ (Source.ofProgram program).topLevelTypes) ↔
    ∀ slot ∈ model.slots, slot.name ∉ Target.kotlin.ownTypes ++ libraryTypes := by
  rw [topLevelTypes_eq made, List.nodup_append']
  constructor
  · rintro ⟨⟨-, -, fresh⟩, free⟩ slot member taken
    have listed : slot.name ∈ model.slots.map (·.name) := List.mem_map_of_mem member
    rcases List.mem_append.mp taken with own | known
    · exact fresh own listed
    · exact free _ known (List.mem_append_right _ listed)
  · intro clear
    have fresh : ∀ name ∈ Target.kotlin.ownTypes ++ libraryTypes, name ∉ model.slots.map (·.name) := by
      intro name taken listed
      obtain ⟨slot, member, rfl⟩ := List.mem_map.mp listed
      exact clear slot member taken
    refine ⟨⟨by decide, apart, fun name own => fresh name (List.mem_append_left _ own)⟩, ?_⟩
    intro name known taken
    rcases List.mem_append.mp taken with own | listed
    · have foreign : ∀ name ∈ libraryTypes, name ∉ Target.kotlin.ownTypes := by decide
      exact foreign name known own
    · exact fresh name (List.mem_append_right _ known) listed

/-- The check of intent names keeps the types nested in `Intent` apart. -/
theorem nestedTypes_nodup (accepted : model.checkNames .kotlin = .ok ()) :
    (Source.ofProgram program).nestedTypes.Nodup := by
  obtain ⟨types, own⟩ := Model.checkNames_eq_ok.mp accepted
  have fresh : ∀ name ∈ Target.kotlin.declaredTypes,
      name ∉ model.intents.map (Target.kotlin.intentType ·.name) := by
    intro name declared taken
    obtain ⟨intent, member, rfl⟩ := List.mem_map.mp taken
    exact own intent member declared
  rw [nestedTypes_eq made, nestedNames, List.nodup_cons, List.nodup_cons]
  exact ⟨by simpa using fresh "NotUnderstood" (by decide), fresh "Companion" (by decide), types⟩

/-- What reads the elements of a slot names an enumeration of the text. -/
theorem mem_enum_names {type : ValueType} {typeName slot : String}
    (read : Reading.ofType? .kotlin model type = some (.element typeName slot)) :
    typeName ∈ (Source.ofProgram program).enums.map (·.name) := by
  cases type with
  | char => cases read
  | integer => cases read
  | element position =>
      obtain ⟨found, place, same⟩ := Option.map_eq_some_iff.mp read
      cases same
      rw [enum_names_eq made]
      exact List.mem_map_of_mem (List.mem_of_getElem? place)

section Branches

variable (free : ∀ name ∈ libraryTypes, name ∉ (Source.ofProgram program).topLevelTypes)

include free

theorem field_passes_iff {v : Variable} {field : Field}
    (written : Field.ofVariable? .kotlin model v = some field) :
    (Source.ofProgram program).Passes (.ofField field) (.ofField field) ↔
      ∀ reading ∈ Reading.ofType? .kotlin model v.type,
        valueType reading ∉ nestedNames model := by
  obtain ⟨reading, read, rfl⟩ := Option.map_eq_some_iff.mp written
  rw [Source.passes_iff free, nestedTypes_eq made, read]
  · simp
  · rintro typeName slot rfl
    exact mem_enum_names made read

theorem admits_iff (apart : (Source.ofProgram program).nestedTypes.Nodup) {intent : Intent}
    {arm : Arm} (listed : arm ∈ program.arms)
    (written : Arm.ofIntent? .kotlin model intent = some arm) :
    (Source.ofProgram program).Admits (.ofArm arm) ↔ Visible model intent := by
  obtain ⟨-, variant, fields⟩ := Arm.ofIntent?_eq_some.mp written
  have pattern : (denoted (Branch.ofArm arm).pattern).isSome = true := by
    rw [Branch.ofArm, denoted_literal]
    rfl
  have declared : (Source.ofProgram program).intents.find? (·.name == (Branch.ofArm arm).name) =
      some (.ofArm arm) := find?_intents apart listed
  have unhidden : (Branch.ofArm arm).hidden = false ↔
      (intent.vars = [] →
        Target.kotlin.intentType intent.name ∉ ["intent", "isUnderstood", "slots"]) ∧
      (intent.vars.length = 1 → Target.kotlin.intentType intent.name ≠ "equals") := by
    rw [hidden_eq_false_iff, variant, ← List.length_eq_zero_iff, ← fields.length_eq,
      List.length_eq_zero_iff]
  have passed : List.Forall₂ (Source.ofProgram program).Passes (Branch.ofArm arm).arguments
        (IntentDecl.ofArm arm).parameters ↔
      ∀ v ∈ intent.vars, ∀ reading ∈ Reading.ofType? .kotlin model v.type,
        valueType reading ∉ nestedNames model := by
    rw [Branch.ofArm, IntentDecl.ofArm, List.forall₂_map_left_iff, List.forall₂_map_right_iff,
      List.forall₂_same]
    constructor
    · intro all v carried
      obtain ⟨field, member, one⟩ := exists_of_forall₂_left fields carried
      exact (field_passes_iff made free one).mp (all field member)
    · intro all field member
      obtain ⟨v, carried, one⟩ := exists_of_forall₂_right fields member
      exact (field_passes_iff made free one).mpr (all v carried)
  rw [Source.Admits, declared, unhidden]
  constructor
  · rintro ⟨-, ⟨alone, called⟩, decl, ⟨⟩, fits⟩
    exact ⟨alone, called, passed.mp fits⟩
  · rintro ⟨alone, called, types⟩
    exact ⟨pattern, ⟨alone, called⟩, _, rfl, passed.mpr types⟩

end Branches

/-- **The text compiles exactly for a legible model.** -/
theorem compiles_iff (accepted : model.checkNames .kotlin = .ok ())
    (apart : (model.slots.map (·.name)).Nodup)
    (vars : ∀ intent ∈ model.intents, (intent.vars.map (·.name)).Nodup) :
    (Source.ofProgram program).Compiles ↔ Legible model := by
  obtain ⟨enumerations, arms⟩ := Program.ofModel?_eq_some.mp made
  have nested := nestedTypes_nodup made accepted
  constructor
  · intro compiles
    obtain ⟨free, unhidden⟩ := Source.fixed_iff.mp compiles.fixed
    refine ⟨(topLevel_iff made apart).mp ⟨compiles.topLevel, free⟩, ?_, ?_⟩
    · intro intent member relied
      refine unhidden _ relied ?_
      rw [nestedTypes_eq made]
      exact .tail _ (.tail _ (List.mem_map.mpr ⟨intent, member, rfl⟩))
    · intro intent member
      obtain ⟨arm, listed, written⟩ := exists_of_forall₂_left arms member
      exact (admits_iff made free nested listed written).mp
        (compiles.branches _ (List.mem_map_of_mem listed))
  · intro legible
    obtain ⟨once, free⟩ := (topLevel_iff made apart).mpr legible.slots
    refine ⟨once, nested, Source.fixed_iff.mpr ⟨free, ?_⟩, ?_, ?_, ?_⟩
    · intro name relied taken
      rw [nestedTypes_eq made] at taken
      rcases List.mem_append.mp (show name ∈ ["NotUnderstood", "Companion"] ++
          model.intents.map (Target.kotlin.intentType ·.name) from taken) with own | listed
      · have outer : ∀ name ∈ reliedOn, name ∉ ["NotUnderstood", "Companion"] := by decide
        exact outer name relied own
      · obtain ⟨intent, member, rfl⟩ := List.mem_map.mp listed
        exact legible.intents intent member relied
    · intro decl declared
      obtain ⟨arm, listed, rfl⟩ := List.mem_map.mp declared
      obtain ⟨intent, member, written⟩ := exists_of_forall₂_right arms listed
      have labels : (IntentDecl.ofArm arm).parameters.map (·.label) = intent.vars.map (·.name) := by
        rw [IntentDecl.ofArm, List.map_map]
        exact Arm.labels_of_ofIntent? written
      rw [labels]
      exact vars intent member
    · intro decl declared
      rw [Source.ofProgram, enumerations, List.map_map] at declared
      obtain ⟨slot, -, rfl⟩ := List.mem_map.mp declared
      simpa [EnumDecl.ofEnumeration, Enumeration.ofSlot, Target.identifier, Function.comp_def] using
        nodup_distinct slot.elements
    · intro branch branched
      obtain ⟨arm, listed, rfl⟩ := List.mem_map.mp branched
      obtain ⟨intent, member, written⟩ := exists_of_forall₂_right arms listed
      exact (admits_iff made free nested listed written).mpr (legible.branches intent member)

end Decoders

end VoiceGrammar.Decoder.Kotlin
