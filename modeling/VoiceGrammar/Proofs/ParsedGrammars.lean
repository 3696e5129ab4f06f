/-
# A document that is read gives a complete grammar

`Outline.demands` lists what a document has to have, in the order in which it is asked for,
with the errors. Checking an outline reports the first demand that is not met, and otherwise
gives the lists as they are (`Outline.toGrammar_eq`). The names of a grammar that has been
read are therefore those that the document mentions, each once, and so every intent can be
found in the compiled model.
-/
import VoiceGrammar.Proofs.Compiled
import VoiceGrammar.Proofs.DocumentNames

namespace VoiceGrammar

set_option autoImplicit false

namespace Outline

/-- The list is there and not empty. -/
def filled (items : Option (List String)) : Bool :=
  !(items.getD []).isEmpty

/-- What a document has to have, and the error if it lacks it: a context, an intent, a phrase in
every intent and an element in every slot. -/
def demands (outline : Outline) : List (Bool × DocumentError) :=
  let intents := ContextMap.expressions.inOutline outline
  let slots := ContextMap.slots.inOutline outline
  [(outline.context.isSome, .missingContext), (!intents.isEmpty, .missingExpressions)] ++
    intents.map (fun entry => (filled entry.2, .emptyIntent entry.1)) ++
    slots.map fun entry => (filled entry.2, .emptySlot entry.1)

/-- The error for the first demand that is not met. -/
def complaint? (outline : Outline) : Option DocumentError :=
  (outline.demands.find? (!·.1)).map (·.2)

/-- The lists without the difference between absent and empty ones. -/
def given (lists : NamedLists) : List (String × List String) :=
  lists.map fun entry => (entry.1, entry.2.getD [])

theorem complete_eq (whenEmpty : String → DocumentError) (lists : NamedLists) :
    complete whenEmpty lists =
      match lists.find? fun entry => !filled entry.2 with
      | some entry => .error (whenEmpty entry.1)
      | none => .ok (given lists) := by
  induction lists with
  | nil => rfl
  | cons entry lists ih =>
      obtain ⟨name, items⟩ := entry
      unfold complete at ih ⊢
      rw [List.mapM_cons, ih]
      match items with
      | none => rfl
      | some [] => rfl
      | some (first :: later) =>
          rw [List.find?_cons_of_neg (by simp [filled])]
          cases lists.find? fun entry => !filled entry.2 <;> rfl

/-- With a context and an intent only the lists can be wrong, those of the intents first. -/
theorem complaint?_of_intents {context : ContextOutline} {first : String × Option (List String)}
    {later : NamedLists} (intents : context.expressions.getD [] = first :: later) :
    complaint? ⟨some context⟩ =
      (((first :: later).find? fun entry => !filled entry.2).map (.emptyIntent ·.1)).or
        (((context.slots.getD []).find? fun entry => !filled entry.2).map (.emptySlot ·.1)) := by
  have listed : ContextMap.expressions.inOutline ⟨some context⟩ = first :: later := intents
  have slots : ContextMap.slots.inOutline ⟨some context⟩ = context.slots.getD [] := rfl
  rw [complaint?, demands, listed, slots, List.append_assoc, List.find?_append,
    List.find?_append, List.find?_map, List.find?_map]
  show Option.map _ (Option.or none _) = _
  rw [Option.none_or, Option.map_or, Option.map_map, Option.map_map]
  rfl

theorem toGrammar_eq (outline : Outline) :
    outline.toGrammar =
      match outline.complaint? with
      | some error => .error error
      | none => .ok ⟨given (ContextMap.slots.inOutline outline),
          given (ContextMap.expressions.inOutline outline)⟩ := by
  obtain ⟨context?⟩ := outline
  cases context? with
  | none => rfl
  | some context =>
      cases intents : context.expressions.getD [] with
      | nil =>
          have none : ContextMap.expressions.inOutline ⟨some context⟩ = [] := intents
          simp [toGrammar, complaint?, demands, intents, none]
      | cons first later =>
          have listed : ContextMap.expressions.inOutline ⟨some context⟩ = first :: later := intents
          have slots : ContextMap.slots.inOutline ⟨some context⟩ = context.slots.getD [] := rfl
          rw [complaint?_of_intents intents, listed, slots]
          simp only [toGrammar, intents, complete_eq]
          cases (first :: later).find? fun entry => !filled entry.2 with
          | some entry => rfl
          | none => cases (context.slots.getD []).find? fun entry => !filled entry.2 <;> rfl

theorem names_given (lists : NamedLists) : (given lists).map Prod.fst = lists.map Prod.fst := by
  rw [given, List.map_map]
  rfl

section Read

variable {outline : Outline} {grammar : Grammar}

theorem toGrammar_eq_error {error : DocumentError} :
    outline.toGrammar = .error error ↔ outline.complaint? = some error := by
  rw [toGrammar_eq]
  cases outline.complaint? <;> simp

/-- A grammar has the lists of its document, and all demands are met. -/
theorem toGrammar_eq_ok (read : outline.toGrammar = .ok grammar) :
    outline.complaint? = none ∧ grammar.slots = given (ContextMap.slots.inOutline outline) ∧
      grammar.expressions = given (ContextMap.expressions.inOutline outline) := by
  rw [toGrammar_eq] at read
  cases complaint : outline.complaint? with
  | some error =>
      rw [complaint] at read
      cases read
  | none =>
      rw [complaint] at read
      cases read
      exact ⟨rfl, rfl, rfl⟩

theorem met_of_complaint?_eq_none (content : outline.complaint? = none) :
    ∀ demand ∈ outline.demands, demand.1 = true := by
  rw [complaint?, Option.map_eq_none_iff, List.find?_eq_none] at content
  simpa using content

theorem ne_nil_of_filled {lists : NamedLists} (filled : ∀ entry ∈ lists, Outline.filled entry.2 = true) :
    ∀ declared ∈ given lists, declared.2 ≠ [] := by
  intro declared member
  obtain ⟨entry, listed, rfl⟩ := List.mem_map.mp member
  simpa [Outline.filled] using filled entry listed

theorem complete_of_toGrammar (read : outline.toGrammar = .ok grammar) :
    grammar.expressions ≠ [] ∧ (∀ declared ∈ grammar.expressions, declared.2 ≠ []) ∧
      ∀ declared ∈ grammar.slots, declared.2 ≠ [] := by
  obtain ⟨content, slots, expressions⟩ := toGrammar_eq_ok read
  have met := met_of_complaint?_eq_none content
  unfold demands at met
  simp only [List.forall_mem_append, List.forall_mem_map] at met
  obtain ⟨⟨records, intents⟩, elements⟩ := met
  have some : !(ContextMap.expressions.inOutline outline).isEmpty :=
    records _ (List.mem_cons_of_mem _ List.mem_cons_self)
  rw [expressions, slots]
  refine ⟨?_, ne_nil_of_filled intents, ne_nil_of_filled elements⟩
  simpa [given] using some

end Read

end Outline

namespace Grammar

variable {text : String} {format : Format} {outline : Outline} {grammar : Grammar}

theorem parse_of_outline? (written : Text.allBlank text = false)
    (read : format.outline? text = some outline) : parse text format = outline.toGrammar := by
  simp [parse, written, read]

theorem exists_outline_of_parse (parsed : parse text format = .ok grammar) :
    ∃ outline, format.outline? text = some outline ∧ outline.toGrammar = .ok grammar := by
  unfold parse at parsed
  split at parsed
  · cases parsed
  · split at parsed
    · cases parsed
    · exact ⟨_, ‹_›, parsed⟩

/-- Every name is there once, where the document first mentions it. -/
theorem names_of_parse (parsed : parse text format = .ok grammar) :
    grammar.expressions.map Prod.fst = firsts id (format.mentions .expressions text) ∧
      grammar.slots.map Prod.fst = firsts id (format.mentions .slots text) := by
  obtain ⟨outline, read, made⟩ := exists_outline_of_parse parsed
  obtain ⟨-, slots, expressions⟩ := Outline.toGrammar_eq_ok made
  rw [expressions, slots, Outline.names_given, Outline.names_given]
  exact ⟨Format.names_of_outline? read _, Format.names_of_outline? read _⟩

/-- Under distinct names every intent is found by its name. -/
theorem intent?_of_mem {reserved : ReservedWords} {model : Model}
    (distinct : (grammar.expressions.map Prod.fst).Nodup)
    (compiled : (grammar.compile reserved).outcome = .ok model) {declared : String × List String}
    (member : declared ∈ grammar.expressions) :
    ∃ intent, model.intent? declared.1 = some intent ∧
      (Intent.build declared.1 declared.2 model.slots reserved).outcome = .ok intent :=
  intent?_of_lookup compiled (lookup_of_mem distinct member)

/-- **A document that is read gives a complete grammar, in which every intent can be found.** There
is an intent, every intent has a phrase and every slot an element, and the names are those that the
document mentions, each once and in the order of first mention; so in every model that the grammar
compiles to, a declared name finds the intent that is built from its phrases. A text that is neither
blank nor invalid is rejected with the first complaint about its outline, if there is any; the
outline has its names in the order of first mention too. -/
theorem parsed_grammar_complete (text : String) (format : Format) :
    (∀ grammar, parse text format = .ok grammar →
      grammar.expressions ≠ [] ∧ (∀ declared ∈ grammar.expressions, declared.2 ≠ []) ∧
      (∀ declared ∈ grammar.slots, declared.2 ≠ []) ∧
      (grammar.expressions.map Prod.fst).Nodup ∧ (grammar.slots.map Prod.fst).Nodup ∧
      grammar.expressions.map Prod.fst = firsts id (format.mentions .expressions text) ∧
      grammar.slots.map Prod.fst = firsts id (format.mentions .slots text) ∧
      ∀ (reserved : ReservedWords) (model : Model),
        (grammar.compile reserved).outcome = .ok model → ∀ declared ∈ grammar.expressions,
          ∃ intent, model.intent? declared.1 = some intent ∧
            (Intent.build declared.1 declared.2 model.slots reserved).outcome = .ok intent) ∧
    ∀ outline, Text.allBlank text = false → format.outline? text = some outline →
      (∀ map : ContextMap,
        (map.inOutline outline).map Prod.fst = firsts id (format.mentions map text)) ∧
      ∀ error, parse text format = .error error ↔ outline.complaint? = some error := by
  have nodup : ∀ mentions : List String, (firsts id mentions).Nodup := by
    intro mentions
    simpa using nodup_map_firsts id mentions
  constructor
  · intro grammar parsed
    obtain ⟨outline, -, made⟩ := exists_outline_of_parse parsed
    obtain ⟨intents, phrases, elements⟩ := Outline.complete_of_toGrammar made
    obtain ⟨names, slots⟩ := names_of_parse parsed
    have distinct : (grammar.expressions.map Prod.fst).Nodup := names ▸ nodup _
    refine ⟨intents, phrases, elements, distinct, slots ▸ nodup _, names, slots, ?_⟩
    intro reserved model compiled declared member
    exact intent?_of_mem distinct compiled member
  · intro outline written read
    refine ⟨Format.names_of_outline? read, fun error => ?_⟩
    rw [parse_of_outline? written read]
    exact Outline.toGrammar_eq_error

/-- A name that is mentioned twice, with the list of its last mention at the place of its first; and
an empty slot that is not blamed, since an intent without phrases comes before it. -/
theorem parsed_grammar_complete_go :
    let text := "\x7b\"context\": \x7b\"slots\": null, \"expressions\": " ++
      "\x7b\"Go\": [\"go\"], \"Stop\": [\"halt\"], \"Go\": [\"go on\"]\x7d\x7d\x7d"
    let grammar : Grammar := ⟨[], [("Go", ["go on"]), ("Stop", ["halt"])]⟩
    let rejected := "context:\n  slots:\n    Ink: []\n  expressions:\n    Go: [go]\n    Stop:\n"
    parse text .json = .ok grammar ∧
    Format.json.mentions .expressions text = ["Go", "Stop", "Go"] ∧
    grammar.expressions.map Prod.fst = firsts id ["Go", "Stop", "Go"] ∧
    (∀ model, (grammar.compile .rust).outcome = .ok model →
      ∃ intent, model.intent? "Go" = some intent ∧
        (Intent.build "Go" ["go on"] model.slots .rust).outcome = .ok intent) ∧
    parse rejected .yaml = .error (.emptyIntent "Stop") := by
  intro text grammar rejected
  have parsed : parse text .json = .ok grammar := by decide +kernel
  have mentioned : Format.json.mentions .expressions text = ["Go", "Stop", "Go"] := by
    decide +kernel
  let outline : Outline :=
    ⟨some ⟨some [("Go", some ["go"]), ("Stop", none)], some [("Ink", some [])]⟩⟩
  have read : Format.yaml.outline? rejected = some outline := by decide +kernel
  obtain ⟨-, -, -, -, -, names, -, found⟩ := (parsed_grammar_complete text .json).1 grammar parsed
  obtain ⟨-, rejects⟩ := (parsed_grammar_complete rejected .yaml).2 outline (by decide +kernel) read
  refine ⟨parsed, mentioned, mentioned ▸ names, ?_, (rejects _).mpr (by decide)⟩
  intro model compiled
  exact found .rust model compiled ("Go", ["go on"]) (by simp [grammar])

end Grammar

end VoiceGrammar
