/-
# The order of the slots does not show

A variable names its slot by position, so in a grammar that declares its slots in
another order the positions are others. `ValueType.Agrees` relates two types that name
the same slot, each in its own model, and intents agree if their variables do. Intents
that agree decode alike (`Model.decode_of_agrees`).

If the slots have names of their own, a tag leads to the same slot in whatever order
they are declared (`ValueType.resolve?_agrees`), so the same phrases build intents that
agree (`Intent.build_agrees`). What is wrong with a phrase depends on which slots there
are and not on their order (`Place.Faulty.of_slots`), so a fault is the same fault.
-/
import Mathlib.Data.List.Nodup
import VoiceGrammar.Decoding
import VoiceGrammar.Proofs.FirstFault

namespace VoiceGrammar

set_option autoImplicit false

/-! ## Models that name the same slots -/

/-- The same built-in type, or the same slot, which may stand at different positions. -/
inductive ValueType.Agrees (model other : Model) : ValueType → ValueType → Prop where
  | char : Agrees model other .char .char
  | integer : Agrees model other .integer .integer
  | element {here there : Nat} {slot : Slot} (found : model.slot? here = some slot)
      (found' : other.slot? there = some slot) :
      Agrees model other (.element here) (.element there)

structure Variable.Agrees (model other : Model) (v w : Variable) : Prop where
  name : w.name = v.name
  type : ValueType.Agrees model other v.type w.type
  required : w.required = v.required

structure Intent.Agrees (model other : Model) (intent twin : Intent) : Prop where
  name : twin.name = intent.name
  vars : List.Forall₂ (Variable.Agrees model other) intent.vars twin.vars

section Decoding

variable {model other : Model}

theorem ValueType.Agrees.decodeValue {type twin : ValueType}
    (agrees : ValueType.Agrees model other type twin) (name raw : String) :
    model.decodeValue name type raw = other.decodeValue name twin raw := by
  cases agrees with
  | char => rfl
  | integer => rfl
  | element found found' => simp only [Model.decodeValue, found, found']

theorem Variable.Agrees.decodeVariable {v w : Variable} (agrees : Variable.Agrees model other v w)
    (filling : Filling) : model.decodeVariable filling v = other.decodeVariable filling w := by
  simp only [Model.decodeVariable, agrees.name, agrees.required, agrees.type.decodeValue]

/-- Models whose intents agree decode alike. -/
theorem Model.decode_of_agrees
    (agree : List.Forall₂ (Intent.Agrees model other) model.intents other.intents)
    (name : String) (understood : Bool) (filling : Filling) :
    model.decode name understood filling = other.decode name understood filling := by
  have found := find?_rel_of_forall₂ (p := (·.name == name)) (q := (·.name == name))
    (fun intent twin agrees => by rw [agrees.name]) agree
  unfold Model.decode Model.intent?
  generalize model.intents.find? (·.name == name) = intent? at found
  generalize other.intents.find? (·.name == name) = twin? at found
  cases found with
  | none => rfl
  | @some intent twin agrees =>
      have values : intent.vars.mapM (model.decodeVariable filling) =
          twin.vars.mapM (other.decodeVariable filling) :=
        mapM_eq_of_forall₂ (agrees.vars.imp fun _ _ one => one.decodeVariable filling)
      simp only [values, agrees.name]

end Decoding

/-! ## Slots in another order -/

theorem ValueType.eq_of_builtin? {tag : String} {type : ValueType}
    (known : builtin? tag = some type) : type = .char ∨ type = .integer := by
  obtain ⟨before, after, listed, -⟩ := List.lookup_eq_some_iff.mp known
  have member : (tag, type) ∈ builtins := by simp [listed]
  simp only [builtins, List.mem_cons, Prod.mk.injEq, List.not_mem_nil, or_false] at member
  rcases member with ⟨-, rfl⟩ | ⟨-, rfl⟩ | ⟨-, rfl⟩ | ⟨-, rfl⟩ | ⟨-, rfl⟩ | ⟨-, rfl⟩ | ⟨-, rfl⟩ <;> simp

section Permuted

variable {model other : Model}

/-- A tag leads to the same slot in both models. -/
theorem ValueType.resolve?_agrees (permuted : model.slots.Perm other.slots)
    (distinct : (model.slots.map (·.name)).Nodup) {tag : String} {type twin : ValueType}
    (resolved : resolve? model.slots tag = some type)
    (resolved' : resolve? other.slots tag = some twin) : Agrees model other type twin := by
  unfold resolve? at resolved resolved'
  cases known : builtin? tag with
  | some builtin =>
      rw [known] at resolved resolved'
      cases resolved
      cases resolved'
      rcases eq_of_builtin? known with rfl | rfl
      · exact .char
      · exact .integer
  | none =>
      rw [known] at resolved resolved'
      obtain ⟨here, found, rfl⟩ := Option.map_eq_some_iff.mp resolved
      obtain ⟨there, found', rfl⟩ := Option.map_eq_some_iff.mp resolved'
      obtain ⟨bound, named, -⟩ := List.findIdx?_eq_some_iff_getElem.mp found
      obtain ⟨bound', named', -⟩ := List.findIdx?_eq_some_iff_getElem.mp found'
      have sameName : model.slots[here].name = other.slots[there].name := by
        rw [beq_iff_eq.mp named, beq_iff_eq.mp named']
      have same : model.slots[here] = other.slots[there] :=
        List.inj_on_of_nodup_map distinct (List.getElem_mem bound)
          (permuted.mem_iff.mpr (List.getElem_mem bound')) sameName
      exact .element (List.getElem?_eq_getElem bound) (same ▸ List.getElem?_eq_getElem bound')

/-- The same phrases build intents that agree. -/
theorem Intent.build_agrees (permuted : model.slots.Perm other.slots)
    (distinct : (model.slots.map (·.name)).Nodup) {name : String} {phrases : List String}
    {reserved : ReservedWords} {intent twin : Intent}
    (built : (build name phrases model.slots reserved).outcome = .ok intent)
    (built' : (build name phrases other.slots reserved).outcome = .ok twin) :
    Agrees model other intent twin := by
  refine ⟨(build_name built').trans (build_name built).symm, ?_⟩
  refine forall₂_join ?_ (forall₂_of_map_eq_map (build_vars built))
    (forall₂_of_map_eq_map (build_vars built'))
  intro mention v w here there
  simp only [Prod.mk.injEq] at here there
  obtain ⟨named, typed, required⟩ := here
  obtain ⟨named', typed', required'⟩ := there
  exact ⟨named'.trans named.symm,
    ValueType.resolve?_agrees permuted distinct typed.symm typed'.symm,
    required'.trans required.symm⟩

end Permuted

namespace Place

variable {grammar other : Grammar} {reserved : ReservedWords} {place : Place}

/-- What is wrong with a place depends on which slots there are. -/
theorem Faulty.of_slots (slots : ∀ slot, slot ∈ grammar.slots ↔ slot ∈ other.slots)
    {fault : PhraseError} (faulty : place.Faulty grammar reserved fault) :
    place.Faulty other reserved fault := by
  have knows : ∀ tag, other.KnowsTag reserved tag → grammar.KnowsTag reserved tag := by
    rintro tag (builtin | ⟨slot, declared, same⟩)
    · exact .inl builtin
    · exact .inr ⟨slot, (slots slot).mpr declared, same⟩
  cases faulty with
  | malformed missing => exact .malformed missing
  | repeated written again => exact .repeated written again
  | unknown written fresh untyped => exact .unknown written fresh (mt (knows _) untyped)

theorem Blames.of_slots (slots : ∀ slot, slot ∈ grammar.slots ↔ slot ∈ other.slots)
    {error : CompileError} (blames : place.Blames grammar reserved error) :
    place.Blames other reserved error :=
  ⟨blames.1, blames.2.of_slots slots⟩

end Place

namespace Grammar

variable {grammar other : Grammar} {reserved : ReservedWords}

theorem compile_eq_error_of_slots (expressions : other.expressions = grammar.expressions)
    (slots : ∀ slot, slot ∈ grammar.slots ↔ slot ∈ other.slots) {error : CompileError}
    (failed : (grammar.compile reserved).outcome = .error error) :
    (other.compile reserved).outcome = .error error := by
  have unique : ∀ (grammar : Grammar) (place : Place) (first second : CompileError),
      place.Blames grammar reserved first → place.Blames grammar reserved second →
      first = second := fun _ _ _ _ => Place.Blames.unique
  rw [(grammar.compile_reports reserved).error_iff (unique grammar)] at failed
  rw [(other.compile_reports reserved).error_iff (unique other), places, expressions]
  refine failed.translate (f := id) ?_ ?_
  · intro place _ error blames
    exact blames.of_slots slots
  · intro place _ error blames
    exact ⟨error, blames.of_slots fun slot => (slots slot).symm⟩

theorem map_name_compileSlot (slots : List (String × List String)) :
    (slots.map (compileSlot reserved)).map (·.name) = slots.map fun slot => reserved.escape slot.1 := by
  rw [List.map_map]
  rfl

/-- **The order of the slots does not show.** Two grammars with the same intents and with the same
slots in any order, no two of them with one escaped name, either both fail to compile, with the
same error, or both compile, to models that decode alike whatever they are given. -/
theorem slot_order_unobservable (expressions : other.expressions = grammar.expressions)
    (permuted : grammar.slots.Perm other.slots)
    (distinct : (grammar.slots.map fun slot => reserved.escape slot.1).Nodup) :
    (∃ error, (grammar.compile reserved).outcome = .error error ∧
      (other.compile reserved).outcome = .error error) ∨
    ∃ model twin, (grammar.compile reserved).outcome = .ok model ∧
      (other.compile reserved).outcome = .ok twin ∧
      ∀ name understood filling,
        model.decode name understood filling = twin.decode name understood filling := by
  cases compiled : (grammar.compile reserved).outcome with
  | error error =>
      exact .inl ⟨error, rfl, compile_eq_error_of_slots expressions (fun _ => permuted.mem_iff) compiled⟩
  | ok model =>
      cases compiled' : (other.compile reserved).outcome with
      | error error =>
          rw [compile_eq_error_of_slots expressions.symm (fun _ => permuted.symm.mem_iff) compiled']
            at compiled
          cases compiled
      | ok twin =>
          obtain ⟨slots, built⟩ := compile_eq_ok compiled
          obtain ⟨slots', built'⟩ := compile_eq_ok compiled'
          have permuted : model.slots.Perm twin.slots := by
            rw [slots, slots']
            exact permuted.map _
          have distinct : (model.slots.map (·.name)).Nodup := by
            rw [slots, map_name_compileSlot]
            exact distinct
          rw [expressions] at built'
          have agree : List.Forall₂ (Intent.Agrees model twin) model.intents twin.intents := by
            refine forall₂_join ?_ built built'
            intro declared intent other one one'
            exact Intent.build_agrees permuted distinct one one'
          exact .inr ⟨model, twin, rfl, rfl, Model.decode_of_agrees agree⟩

/-- An escaped slot name, a slot that a built-in tag hides, and a variable that is used with two
slots. -/
theorem slot_order_unobservable_pick :
    let slots := [("type", ["oil", "ink"]), ("pv.Percent", ["all"]), ("Size", ["big", "ink"])]
    let expressions := [("Pick", ["pick $type:kind", "pick $Size:kind of $pv.Percent:share"])]
    let model : Model :=
      ⟨[⟨"Pick", [⟨"kind", .element 0, true⟩, ⟨"share", .integer, false⟩]⟩],
        [⟨"Type", ["oil", "ink"]⟩, ⟨"pv.Percent", ["all"]⟩, ⟨"Size", ["big", "ink"]⟩]⟩
    let twin : Model :=
      ⟨[⟨"Pick", [⟨"kind", .element 2, true⟩, ⟨"share", .integer, false⟩]⟩],
        [⟨"Size", ["big", "ink"]⟩, ⟨"pv.Percent", ["all"]⟩, ⟨"Type", ["oil", "ink"]⟩]⟩
    (compile ⟨slots, expressions⟩ .rust).outcome = .ok model ∧
    (compile ⟨slots.reverse, expressions⟩ .rust).outcome = .ok twin ∧
    ∀ name understood filling,
      model.decode name understood filling = twin.decode name understood filling := by
  intro slots expressions model twin
  have compiled : (compile ⟨slots, expressions⟩ .rust).outcome = .ok model := by decide +kernel
  have compiled' : (compile ⟨slots.reverse, expressions⟩ .rust).outcome = .ok twin := by
    decide +kernel
  refine ⟨compiled, compiled', ?_⟩
  have same := @slot_order_unobservable ⟨slots, expressions⟩ ⟨slots.reverse, expressions⟩ .rust rfl
    slots.reverse_perm.symm (by decide +kernel)
  rw [compiled, compiled'] at same
  rcases same with ⟨error, failed, -⟩ | ⟨_, _, ⟨⟩, ⟨⟩, decoding⟩
  · cases failed
  · exact decoding

end Grammar

end VoiceGrammar
