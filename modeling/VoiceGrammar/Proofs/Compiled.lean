/-
# Compiled models

A grammar that compiles gives one slot for each declared slot and one intent for
each declared intent, in order (`Grammar.compile_eq_ok`); one that does not fails with
the error of one of its intents (`Grammar.compile_eq_error`). So the intent that decoding
finds under a name is the one built from the phrases declared first under it
(`Grammar.intent?_of_lookup`), and the type of a variable never points past the slots
(`Grammar.grounded_of_compile`).
-/
import VoiceGrammar.Grammar
import VoiceGrammar.Proofs.IntentVariables

namespace VoiceGrammar

set_option autoImplicit false

/-- What a name leads to stands under the first pair with that name. -/
theorem find?_of_lookup {β : Type} {pairs : List (String × β)} {name : String} {value : β}
    (found : pairs.lookup name = some value) : pairs.find? (·.1 == name) = some (name, value) := by
  obtain ⟨before, after, rfl, fresh⟩ := List.lookup_eq_some_iff.mp found
  rw [List.find?_eq_some_iff_append]
  refine ⟨beq_self_eq_true name, before, after, rfl, ?_⟩
  intro pair earlier
  have other : name ≠ pair.1 := by simpa using fresh pair earlier
  simpa using other.symm

namespace Grammar

variable {grammar : Grammar} {reserved : ReservedWords} {model : Model}

theorem compileIntent_eq_ok {slots : List Slot} {declared : String × List String} {intent : Intent} :
    (compileIntent slots reserved declared).outcome = .ok intent ↔
      (Intent.build declared.1 declared.2 slots reserved).outcome = .ok intent :=
  Logged.mapError_eq_ok

theorem compile_eq_ok (compiled : (grammar.compile reserved).outcome = .ok model) :
    model.slots = grammar.slots.map (compileSlot reserved) ∧
    List.Forall₂ (fun declared intent =>
        (Intent.build declared.1 declared.2 model.slots reserved).outcome = .ok intent)
      grammar.expressions model.intents := by
  obtain ⟨intents, built, rest⟩ := Logged.bind_eq_ok.mp compiled
  obtain ⟨_, -, same⟩ := Logged.bind_eq_ok.mp rest
  cases same
  refine ⟨rfl, (Logged.mapM_eq_ok.mp built).imp ?_⟩
  intro declared intent one
  exact compileIntent_eq_ok.mp one

theorem compile_of_built {intents : List Intent}
    (built : List.Forall₂ (fun declared intent => (Intent.build declared.1 declared.2
        (grammar.slots.map (compileSlot reserved)) reserved).outcome = .ok intent)
      grammar.expressions intents) :
    (grammar.compile reserved).outcome =
      .ok ⟨intents, grammar.slots.map (compileSlot reserved)⟩ := by
  refine Logged.bind_eq_ok.mpr ⟨intents, Logged.mapM_eq_ok.mpr (built.imp ?_), rfl⟩
  intro declared intent one
  exact compileIntent_eq_ok.mpr one

/-- An error is that of a declared intent. -/
theorem compile_eq_error {error : CompileError}
    (failed : (grammar.compile reserved).outcome = .error error) :
    ∃ declared ∈ grammar.expressions, error.intent = declared.1 ∧
      (Intent.build declared.1 declared.2 (grammar.slots.map (compileSlot reserved))
        reserved).outcome = .error error.cause := by
  rw [compile, Logged.outcome_bind, Logged.outcome_mapM] at failed
  cases built : grammar.expressions.mapM fun declared =>
      (compileIntent (grammar.slots.map (compileSlot reserved)) reserved declared).outcome with
  | ok intents =>
      rw [built] at failed
      cases failed
  | error found =>
      rw [built] at failed
      cases failed
      obtain ⟨declared, member, wrong⟩ := exists_of_mapM_except_eq_error built
      refine ⟨declared, member, ?_⟩
      rw [compileIntent, Logged.mapError] at wrong
      generalize (Intent.build declared.1 declared.2 (grammar.slots.map (compileSlot reserved))
        reserved).outcome = outcome at wrong ⊢
      cases outcome with
      | ok intent => cases wrong
      | error cause =>
          cases wrong
          exact ⟨rfl, rfl⟩

/-- Every intent of the model was built from a declaration. -/
theorem exists_declaration (compiled : (grammar.compile reserved).outcome = .ok model)
    {intent : Intent} (member : intent ∈ model.intents) :
    ∃ declared ∈ grammar.expressions,
      (Intent.build declared.1 declared.2 model.slots reserved).outcome = .ok intent := by
  obtain ⟨-, built⟩ := compile_eq_ok compiled
  exact exists_of_forall₂_right built member

theorem names_of_compile (compiled : (grammar.compile reserved).outcome = .ok model) :
    model.intents.map (·.name) = grammar.expressions.map Prod.fst := by
  refine map_eq_map_of_forall₂ ((compile_eq_ok compiled).2.imp ?_)
  intro declared intent built
  exact Intent.build_name built

theorem vars_nodup_of_compile (compiled : (grammar.compile reserved).outcome = .ok model) :
    ∀ intent ∈ model.intents, (intent.vars.map (·.name)).Nodup := by
  intro intent member
  obtain ⟨declared, -, built⟩ := exists_declaration compiled member
  exact Intent.build_names_nodup built

/-- Under a declared name stands the intent of its first declaration. -/
theorem intent?_of_lookup (compiled : (grammar.compile reserved).outcome = .ok model)
    {name : String} {phrases : List String}
    (declared : grammar.expressions.lookup name = some phrases) :
    ∃ intent, model.intent? name = some intent ∧
      (Intent.build name phrases model.slots reserved).outcome = .ok intent := by
  obtain ⟨-, built⟩ := compile_eq_ok compiled
  have found := find?_rel_of_forall₂ (p := (·.1 == name)) (q := (·.name == name))
    (fun first intent one => by rw [Intent.build_name one]) built
  rw [find?_of_lookup declared] at found
  unfold Model.intent?
  generalize model.intents.find? (·.name == name) = intent? at found ⊢
  cases found with
  | some one => exact ⟨_, rfl, one⟩

end Grammar

/-- A tag that leads to a slot leads to the first slot of that name. -/
theorem ValueType.resolve?_eq_element {slots : List Slot} {tag : String} {position : Nat}
    (resolved : resolve? slots tag = some (.element position)) :
    slots.findIdx? (·.name == tag) = some position := by
  unfold resolve? at resolved
  cases known : builtin? tag with
  | some type =>
      rw [known] at resolved
      cases resolved
      obtain ⟨before, after, listed, -⟩ := List.lookup_eq_some_iff.mp known
      have member : (tag, element position) ∈ builtins := by simp [listed]
      simp [builtins] at member
  | none =>
      rw [known] at resolved
      obtain ⟨index, found, same⟩ := Option.map_eq_some_iff.mp resolved
      cases same
      exact found

/-- Every slot that a variable names is there. -/
def Model.Grounded (model : Model) : Prop :=
  ∀ intent ∈ model.intents, ∀ v ∈ intent.vars, ∀ position, v.type = .element position →
    ∃ slot, model.slot? position = some slot

theorem Grammar.grounded_of_compile {grammar : Grammar} {reserved : ReservedWords} {model : Model}
    (compiled : (grammar.compile reserved).outcome = .ok model) : model.Grounded := by
  intro intent member v carried position typed
  obtain ⟨declared, -, built⟩ := exists_declaration compiled member
  obtain ⟨o, -, -, resolved, -⟩ := Intent.exists_mention built carried
  have found := ValueType.resolve?_eq_element (typed ▸ resolved)
  have bound := (List.findIdx?_eq_some_iff_findIdx_eq.mp found).1
  exact ⟨model.slots[position], List.getElem?_eq_getElem bound⟩

end VoiceGrammar
