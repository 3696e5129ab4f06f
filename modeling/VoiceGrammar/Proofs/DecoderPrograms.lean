/-
# The decoder of a compiled model

A model whose slots are all there has a decoder (`Program.exists_of_grounded`), and so
has every compiled one (`Program.exists_ofModel?`), with one enumeration
for each slot and one arm for each intent, whose fields are the variables in order
(`Program.ofModel?_eq_some`, `Arm.ofIntent?_eq_some`). A name finds the arm of the
intent that it finds in the model (`Program.find?_rel_intent?`). An enumeration lists
exactly the elements of its slot, each once (`mem_distinct`, `nodup_distinct`).
-/
import VoiceGrammar.Decoder.Program
import VoiceGrammar.Proofs.Compiled

namespace VoiceGrammar

set_option autoImplicit false

/-- The types at the top level of every decoder: the intents and the errors. -/
def Target.ownTypes : Target → List String
  | rust => ["Intent", "DecodeError"]
  | kotlin => ["Intent", "IntentDecodingException"]

namespace Decoder

/-- The keys of a list, each once, are those of the members that are kept. -/
theorem distinct_map {α : Type} (key : α → String) (items : List α) :
    distinct (items.map key) = (firsts key items).map key := by
  induction items using List.reverseRecOn with
  | nil => rfl
  | append_singleton items item ih =>
      have known := mem_map_firsts key items (key item)
      rw [firsts_concat, List.map_append, distinct, List.map_singleton, List.foldl_append,
        ← distinct, ih]
      by_cases member : key item ∈ items.map key
      · simp [known.mpr member, member]
      · simp [mt known.mp member, member]

theorem mem_distinct {elements : List String} {element : String} :
    element ∈ distinct elements ↔ element ∈ elements := by
  have kept := mem_map_firsts id elements element
  rwa [← distinct_map, List.map_id] at kept

theorem nodup_distinct (elements : List String) : (distinct elements).Nodup := by
  have once := nodup_map_firsts id elements
  rwa [← distinct_map, List.map_id] at once

variable {target : Target} {model : Model}

theorem Arm.ofIntent?_eq_some {intent : Intent} {arm : Arm} :
    Arm.ofIntent? target model intent = some arm ↔
      arm.key = intent.name ∧ arm.variant = target.intentType intent.name ∧
      List.Forall₂ (fun v field => Field.ofVariable? target model v = some field)
        intent.vars arm.fields := by
  rw [Arm.ofIntent?, Option.map_eq_some_iff]
  simp only [mapM_option_eq_some]
  constructor
  · rintro ⟨fields, each, rfl⟩
    exact ⟨rfl, rfl, each⟩
  · rintro ⟨key, variant, each⟩
    exact ⟨arm.fields, each, by rw [← variant, ← key]⟩

theorem Arm.labels_of_ofIntent? {intent : Intent} {arm : Arm}
    (written : Arm.ofIntent? target model intent = some arm) :
    arm.fields.map (·.label) = intent.vars.map (target.identifier ·.name) := by
  refine map_eq_map_of_forall₂ ((Arm.ofIntent?_eq_some.mp written).2.2.imp ?_)
  intro v field one
  obtain ⟨reading, -, rfl⟩ := Option.map_eq_some_iff.mp one
  rfl

theorem Program.ofModel?_eq_some {program : Program} :
    Program.ofModel? target model = some program ↔
      program.enumerations = model.slots.map (Enumeration.ofSlot target) ∧
      List.Forall₂ (fun intent arm => Arm.ofIntent? target model intent = some arm)
        model.intents program.arms := by
  rw [Program.ofModel?, Option.map_eq_some_iff]
  simp only [mapM_option_eq_some]
  constructor
  · rintro ⟨arms, each, rfl⟩
    exact ⟨rfl, each⟩
  · rintro ⟨enumerations, each⟩
    exact ⟨program.arms, each, by rw [← enumerations]⟩

theorem Program.variants_of_ofModel? {program : Program}
    (made : Program.ofModel? target model = some program) :
    program.arms.map (·.variant) = model.intents.map (target.intentType ·.name) := by
  refine map_eq_map_of_forall₂ ((Program.ofModel?_eq_some.mp made).2.imp ?_)
  intro intent arm written
  exact (Arm.ofIntent?_eq_some.mp written).2.1

theorem Program.keys_of_ofModel? {program : Program}
    (made : Program.ofModel? target model = some program) :
    program.arms.map (·.key) = model.intents.map (·.name) := by
  refine map_eq_map_of_forall₂ ((Program.ofModel?_eq_some.mp made).2.imp ?_)
  intro intent arm written
  exact (Arm.ofIntent?_eq_some.mp written).1

/-- The first arm under a key is that of the first intent of that name. -/
theorem Program.find?_rel_intent? {program : Program}
    (made : Program.ofModel? target model = some program) (name : String) :
    Option.Rel (fun intent arm => Arm.ofIntent? target model intent = some arm)
      (model.intent? name) (program.arms.find? (·.key == name)) := by
  refine find?_rel_of_forall₂ ?_ (Program.ofModel?_eq_some.mp made).2
  intro intent arm written
  rw [(Arm.ofIntent?_eq_some.mp written).1]

/-- **A model whose slots are all there has a decoder.** -/
theorem Program.exists_of_grounded (grounded : model.Grounded) (target : Target) :
    ∃ program, Program.ofModel? target model = some program := by
  have fields : ∀ intent ∈ model.intents, ∀ v ∈ intent.vars,
      ∃ field, Field.ofVariable? target model v = some field := by
    intro intent member v carried
    cases typed : v.type with
    | char => exact ⟨_, by rw [Field.ofVariable?, typed]; rfl⟩
    | integer => exact ⟨_, by rw [Field.ofVariable?, typed]; rfl⟩
    | element position =>
        obtain ⟨slot, found⟩ := grounded intent member v carried position typed
        exact ⟨_, by rw [Field.ofVariable?, typed, Reading.ofType?, found]; rfl⟩
  have arms : ∀ intent ∈ model.intents, ∃ arm, Arm.ofIntent? target model intent = some arm := by
    intro intent member
    obtain ⟨listed, all⟩ := exists_mapM_eq_some (fields intent member)
    exact ⟨_, by rw [Arm.ofIntent?, all]; rfl⟩
  obtain ⟨listed, all⟩ := exists_mapM_eq_some arms
  exact ⟨_, by rw [Program.ofModel?, all]; rfl⟩

theorem Program.exists_ofModel? {grammar : Grammar} {reserved : ReservedWords}
    (compiled : (grammar.compile reserved).outcome = .ok model) (target : Target) :
    ∃ program, Program.ofModel? target model = some program :=
  exists_of_grounded (Grammar.grounded_of_compile compiled) target

end Decoder

end VoiceGrammar
