/-
# Nothing that works on a compiled model misses a slot

A variable names its slot by position, and whoever works on a model looks the slot up
there. In a compiled model the position is that of the first slot with the name that
the variable's first mention asks for (`Grammar.names_first_slots`), so the model
is grounded. On a grounded model no lookup fails: decoding never finds a slot missing
(`Model.decode_ne_dangling`), and the decoders and both printed forms of the model
exist (`Model.exists_render`, `Model.exists_summary`, `Model.exists_toJson`). The
position of a decoded element is one of its slot's elements
(`Model.decodeValue_eq_element`).
-/
import VoiceGrammar.Command.Report
import VoiceGrammar.Generation
import VoiceGrammar.Proofs.DecoderPrograms
import VoiceGrammar.Proofs.Requiredness

namespace VoiceGrammar

set_option autoImplicit false

namespace Model

variable {model : Model}

/-- A decoded element stands in its slot at its index. -/
theorem decodeValue_eq_element {name raw slotName element : String} {type : ValueType} {index : Nat}
    (decoded : model.decodeValue name type raw = .ok (.element slotName element index)) :
    ∃ position slot, type = .element position ∧ model.slot? position = some slot ∧
      slot.name = slotName ∧ slot.elements[index]? = some element := by
  cases type with
  | char =>
      simp only [decodeValue] at decoded
      split at decoded <;> cases decoded
  | integer =>
      simp only [decodeValue] at decoded
      split at decoded <;> cases decoded
  | element position =>
      simp only [decodeValue] at decoded
      split at decoded
      · cases decoded
      · rename_i slot found
        split at decoded
        · rename_i index listed
          cases decoded
          exact ⟨position, slot, rfl, found, rfl, (Slot.position?_eq_some_iff.mp listed).1⟩
        · cases decoded

/-! ## What a grounded model allows -/

theorem decode_ne_dangling (grounded : model.Grounded) (name : String) (understood : Bool)
    (filling : Filling) (position : Nat) :
    model.decode name understood filling ≠ .error (.danglingSlot position) := by
  intro failed
  cases understood with
  | false => cases failed
  | true =>
      cases found : model.intent? name with
      | none => simp [decode, found] at failed
      | some intent =>
          obtain ⟨v, carried, wrong⟩ := decode_eq_error found failed
          have member := List.mem_of_find?_eq_some found
          rcases decodeVariable_eq_error.mp wrong with ⟨raw, -, wrong⟩ | ⟨-, -, same⟩
          · rcases decodeValue_eq_error wrong with same | same | ⟨_, same⟩ | ⟨place, typed, absent, -⟩
            · cases same
            · cases same
            · cases same
            · obtain ⟨slot, there⟩ := grounded intent member v carried place typed
              rw [absent] at there
              cases there
          · cases same

theorem exists_render (grounded : model.Grounded) (target : Target) (package : Option String) :
    ∃ text, model.render? target package = some text := by
  obtain ⟨program, made⟩ := Decoder.Program.exists_of_grounded grounded target
  exact ⟨_, by rw [render?, made]; rfl⟩

theorem exists_typeName (grounded : model.Grounded) {intent : Intent}
    (member : intent ∈ model.intents) {v : Variable} (carried : v ∈ intent.vars) :
    ∃ name, model.typeName? v.type = some name := by
  cases typed : v.type with
  | char => exact ⟨_, rfl⟩
  | integer => exact ⟨_, rfl⟩
  | element position =>
      obtain ⟨slot, found⟩ := grounded intent member v carried position typed
      exact ⟨slot.name, by rw [typeName?, found]; rfl⟩

theorem exists_summary (grounded : model.Grounded) : ∃ text, model.summary? = some text := by
  have intents : ∀ intent ∈ model.intents, ∃ lines, model.intentLines? intent = some lines := by
    intro intent member
    have vars : ∀ v ∈ intent.vars, ∃ line, model.variableLine? v = some line := by
      intro v carried
      obtain ⟨name, named⟩ := exists_typeName grounded member carried
      exact ⟨_, by rw [variableLine?, named]; rfl⟩
    obtain ⟨lines, all⟩ := exists_mapM_eq_some vars
    exact ⟨_, by rw [intentLines?, all]; rfl⟩
  obtain ⟨lines, all⟩ := exists_mapM_eq_some intents
  exact ⟨_, by rw [summary?, all]; rfl⟩

theorem exists_toJson (grounded : model.Grounded) : ∃ json, model.toJson? = some json := by
  have intents : ∀ intent ∈ model.intents, ∃ json, model.intentJson? intent = some json := by
    intro intent member
    have vars : ∀ v ∈ intent.vars, ∃ json, model.variableJson? v = some json := by
      intro v carried
      obtain ⟨name, named⟩ := exists_typeName grounded member carried
      exact ⟨_, by rw [variableJson?, named]; rfl⟩
    obtain ⟨listed, all⟩ := exists_mapM_eq_some vars
    exact ⟨_, by rw [intentJson?, all]; rfl⟩
  obtain ⟨listed, all⟩ := exists_mapM_eq_some intents
  exact ⟨_, by rw [toJson?, all]; rfl⟩

end Model

/-! ## Compiled models -/

namespace Grammar

variable {grammar : Grammar} {reserved : ReservedWords} {model : Model}

/-- The slots of the intent's variables are those that their first mentions ask for: of all slots
with that escaped name the first. -/
def NamesFirstSlots (grammar : Grammar) (reserved : ReservedWords)
    (declared : String × List String) (intent : Intent) : Prop :=
  ∀ v ∈ intent.vars, ∀ position, v.type = .element position →
    ∃ first, (declared.2.flatMap Phrase.occurrences).find?
        (fun o => reserved.escape o.name == v.name) = some first ∧
      grammar.slots.findIdx?
        (fun slot => reserved.escape slot.1 == reserved.escape first.tag) = some position

theorem names_first_slots (compiled : (grammar.compile reserved).outcome = .ok model) :
    List.Forall₂ (grammar.NamesFirstSlots reserved) grammar.expressions model.intents := by
  obtain ⟨slots, built⟩ := compile_eq_ok compiled
  refine built.imp ?_
  intro declared intent one v carried position typed
  obtain ⟨first, mentioned, named, resolved, -⟩ := Intent.exists_mention one carried
  have earliest := find?_of_mem_firsts _ mentioned
  have found := ValueType.resolve?_eq_element (typed ▸ resolved)
  refine ⟨first, ?_, ?_⟩
  · rw [← named]
    exact earliest
  · rw [slots, List.findIdx?_map] at found
    exact found

/-- **A compiled model lacks no slot.** The type of a variable points to a slot, the first one with
the escaped name that the variable's first mention asks for. So decoding, whatever it is given,
finds every slot and every element that it looks up, the decoder exists in every target, and so do
both printed forms; names are checked without a look at the slots. -/
theorem compiled_model_lacks_no_slot (compiled : (grammar.compile reserved).outcome = .ok model) :
    (∀ intent ∈ model.intents, ∀ v ∈ intent.vars, ∀ position, v.type = .element position →
      position < model.slots.length) ∧
    List.Forall₂ (grammar.NamesFirstSlots reserved) grammar.expressions model.intents ∧
    (∀ name understood filling position,
      model.decode name understood filling ≠ .error (.danglingSlot position)) ∧
    (∀ name type raw slotName element index,
      model.decodeValue name type raw = .ok (.element slotName element index) →
        ∃ position slot, type = .element position ∧ model.slot? position = some slot ∧
          slot.name = slotName ∧ slot.elements[index]? = some element) ∧
    (∀ target package, ∃ text, model.render? target package = some text) ∧
    (∀ target, model.checkNames target = Model.checkNames ⟨model.intents, []⟩ target) ∧
    (∃ text, model.summary? = some text) ∧
    ∃ json, model.toJson? = some json := by
  have grounded := grounded_of_compile compiled
  refine ⟨?_, names_first_slots compiled, model.decode_ne_dangling grounded, ?_,
    model.exists_render grounded, fun _ => rfl, model.exists_summary grounded,
    model.exists_toJson grounded⟩
  · intro intent member v carried position typed
    obtain ⟨slot, found⟩ := grounded intent member v carried position typed
    exact (List.getElem?_eq_some_iff.mp found).1
  · intro name type raw slotName element index decoded
    exact Model.decodeValue_eq_element decoded

/-- Two slots of one escaped name, of which the first counts, and one that a built-in tag hides. -/
theorem compiled_model_lacks_no_slot_pick :
    let grammar : Grammar := ⟨[("pv.Percent", ["x"]), ("type", ["a"]), ("Type", ["b"])],
      [("Pick", ["pick $Type:kind", "pick $pv.Percent:share of $type:kind"])]⟩
    let vars : List Variable := [⟨"kind", .element 1, true⟩, ⟨"share", .integer, false⟩]
    let slots : List Slot := [⟨"pv.Percent", ["x"]⟩, ⟨"Type", ["a"]⟩, ⟨"Type", ["b"]⟩]
    let model : Model := ⟨[⟨"Pick", vars⟩], slots⟩
    (grammar.compile ReservedWords.rust).outcome = .ok model ∧
    (∀ filling position, model.decode "Pick" true filling ≠ .error (.danglingSlot position)) ∧
    ∃ text, model.render? .kotlin (some "shop") = some text := by
  intro grammar vars slots model
  have compiled : (grammar.compile ReservedWords.rust).outcome = .ok model := by decide +kernel
  obtain ⟨-, -, decoding, -, rendering, -⟩ := compiled_model_lacks_no_slot compiled
  exact ⟨compiled, decoding "Pick" true, rendering .kotlin (some "shop")⟩

end Grammar

end VoiceGrammar
