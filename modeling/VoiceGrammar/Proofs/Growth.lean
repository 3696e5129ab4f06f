/-
# What stays when a grammar grows

A grammar grows in two ways that leave what was there alone.

One more phrase for an intent that has phrases already adds variables behind the old
ones, and none of them is required, since the earlier phrases do not have them; the old
variables keep their names and types and may at most become optional
(`Intent.build_extends`). So whatever decoded before decodes again, with the new
variables empty (`Intent.Extends.decode`).

More slots and more intents behind the declared ones change nothing for these: a tag
leads to the first slot of its name and a name to the first intent, so what was built
is built again (`Intent.build_of_more_slots`) and what was found is found again.
-/
import VoiceGrammar.Proofs.Requiredness

namespace VoiceGrammar

set_option autoImplicit false

/-! ## What decoding depends on -/

namespace Model

variable {model grown : Model}

/-- Decoding a text depends on the slot of its type. -/
theorem decodeValue_congr {type : ValueType}
    (same : ∀ position, type = .element position → grown.slot? position = model.slot? position)
    (name raw : String) : grown.decodeValue name type raw = model.decodeValue name type raw := by
  cases type with
  | char => rfl
  | integer => rfl
  | element position => simp only [decodeValue, same position rfl]

theorem intent?_of_append {front back : List Intent} (intents : model.intents = front ++ back)
    (name : String) : model.intent? name =
      (front.find? (·.name == name)).or (back.find? (·.name == name)) := by
  rw [intent?, intents, List.find?_append]

/-- Decoding depends on the intent of that name and on the slots of its variables. -/
theorem decode_congr {name : String} {intent : Intent} (found : model.intent? name = some intent)
    (found' : grown.intent? name = some intent)
    (same : ∀ v ∈ intent.vars, ∀ position, v.type = .element position →
      grown.slot? position = model.slot? position) (understood : Bool) (filling : Filling) :
    grown.decode name understood filling = model.decode name understood filling := by
  cases understood with
  | false => rfl
  | true =>
      have each : intent.vars.mapM (grown.decodeVariable filling) =
          intent.vars.mapM (model.decodeVariable filling) := by
        apply mapM_congr_mem
        intro v carried
        simp only [decodeVariable, decodeValue_congr (same v carried)]
      simp only [decode, found, found', each]

end Model

/-! ## One more phrase -/

/-- The variable `w` asks for no more than `v`. -/
structure Variable.LoosenedTo (v w : Variable) : Prop where
  name : w.name = v.name
  type : w.type = v.type
  required : w.required = true → v.required = true

/-- The intent `new` has the variables of `old`, loosened, and then `added`, all of them new and
optional. -/
structure Intent.Extends (old new : Intent) (added : List Variable) : Prop where
  name : new.name = old.name
  vars : ∃ kept, new.vars = kept ++ added ∧ List.Forall₂ Variable.LoosenedTo old.vars kept
  fresh : ∀ v ∈ added, v.name ∉ old.vars.map (·.name)
  optional : ∀ v ∈ added, v.required = false

/-- The same result with further variables, all of them empty. -/
def Decoded.withEmpty (added : List Variable) : Decoded → Decoded
  | .notUnderstood => .notUnderstood
  | .understood intent vars => .understood intent (vars ++ added.map fun v => ⟨v.name, none⟩)

theorem Variable.LoosenedTo.decode {model grown : Model} (slots : grown.slots = model.slots)
    {filling : Filling} {v w : Variable} (loosened : v.LoosenedTo w) {d : DecodedVariable}
    (decoded : model.decodeVariable filling v = .ok d) : grown.decodeVariable filling w = .ok d := by
  have same : ∀ raw, grown.decodeValue v.name v.type raw = model.decodeValue v.name v.type raw :=
    Model.decodeValue_congr (fun position _ => by rw [Model.slot?, Model.slot?, slots]) v.name
  unfold Model.decodeVariable at decoded ⊢
  rw [loosened.name, loosened.type]
  cases filled : filling v.name with
  | some raw =>
      rw [filled] at decoded
      simpa only [same] using decoded
  | none =>
      rw [filled] at decoded
      cases required : v.required with
      | true => simp [required] at decoded
      | false =>
          have optional : w.required = false := by
            cases still : w.required with
            | false => rfl
            | true => simpa [required] using loosened.required still
          simpa [required, optional] using decoded

/-- What decoded before decodes again, if nothing is given for the new variables. -/
theorem Intent.Extends.decode {model grown : Model} {name : String} {old new : Intent}
    {added : List Variable} (extension : old.Extends new added) (slots : grown.slots = model.slots)
    (found : model.intent? name = some old) (found' : grown.intent? name = some new)
    {understood : Bool} {filling : Filling} {result : Decoded}
    (unfilled : ∀ v ∈ added, filling v.name = none)
    (decoded : model.decode name understood filling = .ok result) :
    grown.decode name understood filling = .ok (result.withEmpty added) := by
  cases understood with
  | false =>
      cases decoded
      rfl
  | true =>
      obtain ⟨kept, vars, loosened⟩ := extension.vars
      simp only [Model.decode, found, if_true] at decoded
      cases each : old.vars.mapM (model.decodeVariable filling) with
      | error error => simp [each, Except.map] at decoded
      | ok values =>
          obtain rfl : Decoded.understood old.name values = result := by
            simpa [each, Except.map] using decoded
          have front : List.Forall₂ (fun w d => grown.decodeVariable filling w = .ok d)
              kept values :=
            forall₂_join (fun _ _ _ loose one => loose.decode slots one) loosened
              (mapM_except_eq_ok.mp each)
          have back : List.Forall₂ (fun w d => grown.decodeVariable filling w = .ok d)
              added (added.map fun v => ⟨v.name, none⟩) := by
            rw [List.forall₂_map_right_iff, List.forall₂_same]
            intro v member
            exact Model.decodeVariable_of_none (unfilled v member) (extension.optional v member)
          have all : List.Forall₂ (fun w d => grown.decodeVariable filling w = .ok d)
              new.vars (values ++ added.map fun v => ⟨v.name, none⟩) := by
            rw [vars]
            exact List.rel_append front back
          rw [Model.decode_eq_understood found' all, extension.name]
          rfl

/-- The same for an intent among others. If an earlier one has its name, that one answers. -/
theorem Intent.Extends.decode_among {model grown : Model} {first later : List Intent}
    {old new : Intent} {added : List Variable} (extension : old.Extends new added)
    (intents : model.intents = first ++ old :: later)
    (intents' : grown.intents = first ++ new :: later) (slots : grown.slots = model.slots)
    {understood : Bool} {filling : Filling} {result : Decoded}
    (unfilled : ∀ v ∈ added, filling v.name = none)
    (decoded : model.decode old.name understood filling = .ok result) :
    grown.decode old.name understood filling =
      .ok (if old.name ∈ first.map (·.name) then result else result.withEmpty added) := by
  have found := Model.intent?_of_append intents old.name
  have found' := Model.intent?_of_append intents' old.name
  cases earlier : first.find? (·.name == old.name) with
  | some intent =>
      rw [earlier, Option.some_or] at found found'
      have known : old.name ∈ first.map (·.name) := by
        have named := List.find?_some earlier
        exact List.mem_map.mpr ⟨intent, List.mem_of_find?_eq_some earlier, by simpa using named⟩
      rw [if_pos known, ← decoded]
      refine Model.decode_congr found found' (fun _ _ position _ => ?_) understood filling
      rw [Model.slot?, Model.slot?, slots]
  | none =>
      rw [earlier, Option.none_or, List.find?_cons_of_pos (by simp)] at found
      rw [earlier, Option.none_or, List.find?_cons_of_pos (by simp [extension.name])] at found'
      have unknown : old.name ∉ first.map (·.name) := by
        intro member
        obtain ⟨intent, listed, same⟩ := List.mem_map.mp member
        exact List.find?_eq_none.mp earlier intent listed (by simpa using same)
      rw [if_neg unknown]
      exact extension.decode slots found found' unfilled decoded

namespace Intent

variable {name : String} {phrases : List String} {slots : List Slot} {reserved : ReservedWords}

/-- Fewer phrases build if more do. -/
theorem build_of_append {more : List String} {new : Intent}
    (built : (build name (phrases ++ more) slots reserved).outcome = .ok new) :
    ∃ old, (build name phrases slots reserved).outcome = .ok old := by
  obtain ⟨progress, read, -⟩ := Logged.bind_eq_ok.mp built
  rw [List.foldlM_append] at read
  obtain ⟨middle, first, -⟩ := Logged.bind_eq_ok.mp read
  exact ⟨_, Logged.bind_eq_ok.mpr ⟨middle, first, rfl⟩⟩

/-- A name that no phrase mentions is not required, once there is a phrase. -/
theorem not_requiredBy_of_unmentioned {key : String} (spoken : phrases ≠ [])
    (unmentioned : key ∉ (phrases.flatMap Phrase.occurrences).map fun o => reserved.escape o.name) :
    ¬ RequiredBy reserved phrases key := by
  intro required
  obtain ⟨phrase, given⟩ := List.exists_mem_of_ne_nil phrases spoken
  obtain ⟨o, read, same, -⟩ := required phrase given
  exact unmentioned (List.mem_map.mpr ⟨o, List.mem_flatMap.mpr ⟨phrase, given, read⟩, same⟩)

/-- One more phrase extends the intent. -/
theorem build_extends {phrase : String} {old new : Intent} (spoken : phrases ≠ [])
    (before : (build name phrases slots reserved).outcome = .ok old)
    (after : (build name (phrases ++ [phrase]) slots reserved).outcome = .ok new) :
    ∃ added, old.Extends new added := by
  -- the mentions of the old phrases come first, in the same order
  obtain ⟨more, split, unmentioned⟩ := firsts_append (fun o : Occurrence => reserved.escape o.name)
    (phrases.flatMap Phrase.occurrences) (Phrase.occurrences phrase)
  have mentions : firstMentions reserved (phrases ++ [phrase]) =
      firstMentions reserved phrases ++ more := by
    rw [firstMentions, List.flatMap_append, List.flatMap_singleton]
    exact split
  have vars := build_vars after
  rw [mentions, List.map_append, List.map_eq_append_iff] at vars
  obtain ⟨kept, added, joined, keptVars, addedVars⟩ := vars
  have came : ∀ v ∈ added, ∃ o ∈ more, reserved.escape o.name = v.name ∧
      decide (RequiredBy reserved (phrases ++ [phrase]) v.name) = v.required := by
    intro v member
    have listed := List.mem_map_of_mem (f := fun v : Variable => (v.name, some v.type, v.required))
      member
    rw [addedVars] at listed
    obtain ⟨o, mentioned, same⟩ := List.mem_map.mp listed
    simp only [Prod.mk.injEq] at same
    exact ⟨o, mentioned, same.1, by rw [← same.1]; exact same.2.2⟩
  refine ⟨added, ?_, ⟨kept, joined, ?_⟩, ?_, ?_⟩
  · rw [build_name before, build_name after]
  · refine forall₂_join ?_ (forall₂_of_map_eq_map (build_vars before))
      (forall₂_of_map_eq_map keptVars)
    intro o v w was is
    simp only [Prod.mk.injEq] at was is
    refine ⟨is.1.trans was.1.symm, Option.some.inj (is.2.1.trans was.2.1.symm), fun required => ?_⟩
    rw [is.2.2, decide_eq_true_iff, requiredBy_concat] at required
    rw [was.2.2, decide_eq_true_iff]
    exact required.1
  · intro v member known
    obtain ⟨o, mentioned, named, -⟩ := came v member
    rw [build_names before, firstMentions, mem_map_firsts] at known
    exact unmentioned o mentioned (named ▸ known)
  · intro v member
    obtain ⟨o, mentioned, named, required⟩ := came v member
    rw [← required, decide_eq_false_iff_not, requiredBy_concat]
    rintro ⟨old, -⟩
    exact not_requiredBy_of_unmentioned spoken (named ▸ unmentioned o mentioned) old

end Intent

namespace Grammar

/-- A declaration that is replaced leaves the other intents as they are. -/
theorem compile_replace {grammar : Grammar} {reserved : ReservedWords} {model : Model}
    {before after : List (String × List String)} {name : String} {phrases others : List String}
    {old new : Intent} (declared : grammar.expressions = before ++ (name, phrases) :: after)
    (compiled : (grammar.compile reserved).outcome = .ok model)
    (built : (Intent.build name phrases (grammar.slots.map (compileSlot reserved))
      reserved).outcome = .ok old)
    (built' : (Intent.build name others (grammar.slots.map (compileSlot reserved))
      reserved).outcome = .ok new) :
    ∃ first later grown, first.map (·.name) = before.map Prod.fst ∧
      model.intents = first ++ old :: later ∧
      (compile ⟨grammar.slots, before ++ (name, others) :: after⟩ reserved).outcome = .ok grown ∧
      grown.intents = first ++ new :: later ∧ grown.slots = model.slots := by
  obtain ⟨slots, all⟩ := compile_eq_ok compiled
  rw [slots, declared] at all
  obtain ⟨first, rest, joined, front, back⟩ := exists_of_forall₂_append all
  cases back with
  | @cons _ intent _ later one tail =>
      obtain rfl : intent = old := by
        rw [built] at one
        exact (Except.ok.inj one).symm
      have compiled' : (compile ⟨grammar.slots, before ++ (name, others) :: after⟩
          reserved).outcome = .ok ⟨first ++ new :: later, grammar.slots.map (compileSlot reserved)⟩ :=
        compile_of_built (List.rel_append front (.cons built' tail))
      exact ⟨first, later, _, map_eq_map_of_forall₂ (front.imp fun _ _ => Intent.build_name),
        joined, compiled', rfl, slots.symm⟩

/-- **One more phrase breaks no caller.** If an intent that has phrases builds with a further one,
it builds without it; the further phrase only adds variables behind the old ones, all optional,
and may make old ones optional. In a grammar with this intent, what decoded under its name still
decodes if nothing is given for the added variables: the old variables have the values they had,
and the added ones are empty. Where an earlier declaration has the same name, that one answers,
as it did before. -/
theorem appended_phrase_compatible {name phrase : String} {phrases : List String}
    {slots : List Slot} {reserved : ReservedWords} {new : Intent} (spoken : phrases ≠ [])
    (built : (Intent.build name (phrases ++ [phrase]) slots reserved).outcome = .ok new) :
    ∃ old added, (Intent.build name phrases slots reserved).outcome = .ok old ∧
      old.Extends new added ∧
      ∀ (grammar : Grammar) (before after : List (String × List String)) (model : Model),
        grammar.slots.map (compileSlot reserved) = slots →
        grammar.expressions = before ++ (name, phrases) :: after →
        (grammar.compile reserved).outcome = .ok model →
        ∃ grown, (compile ⟨grammar.slots, before ++ (name, phrases ++ [phrase]) :: after⟩
            reserved).outcome = .ok grown ∧
          ∀ understood filling result, (∀ v ∈ added, filling v.name = none) →
            model.decode name understood filling = .ok result →
            grown.decode name understood filling =
              .ok (if name ∈ before.map Prod.fst then result else result.withEmpty added) := by
  obtain ⟨old, builtOld⟩ := Intent.build_of_append built
  obtain ⟨added, extension⟩ := Intent.build_extends spoken builtOld built
  refine ⟨old, added, builtOld, extension, ?_⟩
  rintro grammar before after model rfl declared compiled
  obtain ⟨first, later, grown, names, intents, compiled', intents', sameSlots⟩ :=
    compile_replace declared compiled builtOld built
  refine ⟨grown, compiled', ?_⟩
  intro understood filling result unfilled decoded
  have named := Intent.build_name builtOld
  subst named
  rw [← names]
  exact extension.decode_among intents intents' sameSlots unfilled decoded

/-- A variable that becomes optional, an added one, and a later declaration of the same name. -/
theorem appended_phrase_compatible_paint :
    let before := [("Stop", ["stop"])]
    let after := [("Paint", ["fill"])]
    let slots : List (String × List String) := [("Color", ["red"])]
    let tone : Variable := ⟨"tone", .element 0, true⟩
    let level : Variable := ⟨"level", .integer, false⟩
    let new : Intent := ⟨"Paint", [{ tone with required := false }, level]⟩
    let model : Model := ⟨[⟨"Stop", []⟩, ⟨"Paint", [tone]⟩, ⟨"Paint", []⟩], [⟨"Color", ["red"]⟩]⟩
    (Intent.build "Paint" (["paint it $Color:tone"] ++ ["dim to $pv.Percent:level"]) model.slots
      .rust).outcome = .ok new ∧
    (compile ⟨slots, before ++ ("Paint", ["paint it $Color:tone"]) :: after⟩ .rust).outcome =
      .ok model ∧
    ∃ grown, (compile ⟨slots, before ++ ("Paint", ["paint it $Color:tone"] ++
        ["dim to $pv.Percent:level"]) :: after⟩ .rust).outcome = .ok grown ∧
      ∀ filling result, filling "level" = none → model.decode "Paint" true filling = .ok result →
        grown.decode "Paint" true filling = .ok (result.withEmpty [level]) := by
  intro before after slots tone level new model
  have built : (Intent.build "Paint" (["paint it $Color:tone"] ++ ["dim to $pv.Percent:level"])
      model.slots .rust).outcome = .ok new := by decide +kernel
  have alone : (Intent.build "Paint" ["paint it $Color:tone"] model.slots .rust).outcome =
      .ok ⟨"Paint", [tone]⟩ := by decide +kernel
  have compiled : (compile ⟨slots, before ++ ("Paint", ["paint it $Color:tone"]) :: after⟩
      .rust).outcome = .ok model := by decide +kernel
  refine ⟨built, compiled, ?_⟩
  obtain ⟨old, added, builtOld, extension, compatible⟩ :=
    appended_phrase_compatible (List.cons_ne_nil _ _) built
  obtain ⟨grown, compiled', decoding⟩ := compatible _ before after model (by decide +kernel) rfl
    compiled
  have only : added = [level] := by
    obtain ⟨kept, vars, loosened⟩ := extension.vars
    rw [alone] at builtOld
    cases builtOld
    cases loosened with
    | cons _ rest =>
        cases rest
        exact ((List.cons.inj vars).2).symm
  refine ⟨grown, compiled', fun filling result unfilled decoded => ?_⟩
  rw [only] at decoding
  exact decoding true filling result (by simpa using unfilled) decoded

/-- Without an earlier phrase the variables of the first one are required. -/
example : (Intent.build "Dim" [] [] .rust).outcome = .ok ⟨"Dim", []⟩ ∧
    (Intent.build "Dim" ["dim to $pv.Percent:level"] [] .rust).outcome =
      .ok ⟨"Dim", [⟨"level", .integer, true⟩]⟩ := by
  decide +kernel

end Grammar

/-! ## More slots and intents -/

theorem ValueType.resolve?_of_more_slots {slots more : List Slot} {tag : String} {type : ValueType}
    (resolved : resolve? slots tag = some type) : resolve? (slots ++ more) tag = some type := by
  unfold resolve? at resolved ⊢
  cases known : builtin? tag with
  | some builtin =>
      rw [known] at resolved
      exact resolved
  | none =>
      rw [known] at resolved
      obtain ⟨position, found, rfl⟩ := Option.map_eq_some_iff.mp resolved
      simp only [List.findIdx?_append, found, Option.some_or, Option.map_some]

namespace Intent

variable {name : String} {phrases : List String} {slots more : List Slot}
  {reserved : ReservedWords}

theorem Draft.read_of_more_slots {phrase : String} {draft next : Draft} {signal : Scan.Signal}
    (read : (draft.read ⟨name, slots, reserved⟩ phrase signal).outcome = .ok next) :
    (draft.read ⟨name, slots ++ more, reserved⟩ phrase signal).outcome = .ok next := by
  cases signal with
  | event event => exact read
  | fault error => cases read
  | occurrence occurrence =>
      obtain ⟨fresh, type, resolved, grown⟩ := Draft.add_eq_ok.mp read
      exact Draft.add_eq_ok.mpr ⟨fresh, type, ValueType.resolve?_of_more_slots resolved, grown⟩

theorem Progress.read_of_more_slots {phrase : String} {progress next : Progress}
    (read : (progress.read ⟨name, slots, reserved⟩ phrase).outcome = .ok next) :
    (progress.read ⟨name, slots ++ more, reserved⟩ phrase).outcome = .ok next := by
  obtain ⟨draft, inner, same⟩ := Logged.bind_eq_ok.mp read
  refine Logged.bind_eq_ok.mpr ⟨draft, Logged.foldlM_mono ?_ inner, same⟩
  intro draft signal next step
  exact Draft.read_of_more_slots step

/-- What builds builds again, to the same intent, with further slots behind. -/
theorem build_of_more_slots {intent : Intent}
    (built : (build name phrases slots reserved).outcome = .ok intent) :
    (build name phrases (slots ++ more) reserved).outcome = .ok intent := by
  obtain ⟨progress, inner, same⟩ := Logged.bind_eq_ok.mp built
  refine Logged.bind_eq_ok.mpr ⟨progress, Logged.foldlM_mono ?_ inner, same⟩
  intro progress phrase next step
  exact Progress.read_of_more_slots step

end Intent

namespace Grammar

variable {grammar : Grammar} {reserved : ReservedWords} {model grown : Model}

/-- Further declarations keep what was compiled in front. -/
theorem prefix_of_compile_append {slots expressions : List (String × List String)}
    (compiled : (grammar.compile reserved).outcome = .ok model)
    (compiled' : (compile ⟨grammar.slots ++ slots, grammar.expressions ++ expressions⟩
      reserved).outcome = .ok grown) :
    model.slots <+: grown.slots ∧ model.intents <+: grown.intents := by
  obtain ⟨slotsEq, built⟩ := compile_eq_ok compiled
  obtain ⟨slotsEq', built'⟩ := compile_eq_ok compiled'
  have front : model.slots <+: grown.slots := by
    rw [slotsEq, slotsEq', List.map_append]
    exact List.prefix_append _ _
  obtain ⟨more, joined⟩ := front
  refine ⟨⟨more, joined⟩, ?_⟩
  obtain ⟨first, later, intents, again, -⟩ := exists_of_forall₂_append built'
  -- the old declarations build to one list of intents only
  have same : first = model.intents := by
    apply List.forall₂_eq_eq_eq ▸ forall₂_join ?_ again built
    intro declared intent intent' one one'
    rw [← joined, Intent.build_of_more_slots one'] at one
    exact (Except.ok.inj one).symm
  rw [intents, same]
  exact List.prefix_append _ _

/-- Models that agree in front decode alike what the shorter one knows. -/
theorem decode_of_prefix (grounded : model.Grounded) (slots : model.slots <+: grown.slots)
    (intents : model.intents <+: grown.intents) {name : String}
    (known : name ∈ model.intents.map (·.name)) (understood : Bool) (filling : Filling) :
    grown.decode name understood filling = model.decode name understood filling := by
  obtain ⟨moreSlots, slotsEq⟩ := slots
  obtain ⟨moreIntents, intentsEq⟩ := intents
  cases found : model.intent? name with
  | none =>
      obtain ⟨intent, member, same⟩ := List.mem_map.mp known
      exact absurd (by simpa using same) (List.find?_eq_none.mp found intent member)
  | some intent =>
      have found' : grown.intent? name = some intent := by
        rw [Model.intent?_of_append intentsEq.symm, ← Model.intent?, found, Option.some_or]
      refine Model.decode_congr found found' ?_ understood filling
      intro v carried position typed
      have member : intent ∈ model.intents := List.mem_of_find?_eq_some found
      obtain ⟨slot, there⟩ := grounded intent member v carried position typed
      have bound := (List.getElem?_eq_some_iff.mp there).1
      rw [Model.slot?, Model.slot?, ← slotsEq, List.getElem?_append_left bound]

/-- **Declarations added behind disturb nothing.** If a grammar compiles, then with further slots
and intents behind its own it fails to compile only because one of the added intents does not
build, or it compiles to a model that begins with the old one; under the old intents' names
that model decodes as before. -/
theorem appended_declarations_undisturbing
    (compiled : (grammar.compile reserved).outcome = .ok model)
    (slots expressions : List (String × List String)) :
    (∃ error, (compile ⟨grammar.slots ++ slots, grammar.expressions ++ expressions⟩
        reserved).outcome = .error error ∧
      ∃ declared ∈ expressions, error.intent = declared.1 ∧
        (Intent.build declared.1 declared.2 ((grammar.slots ++ slots).map (compileSlot reserved))
          reserved).outcome = .error error.cause) ∨
    ∃ grown, (compile ⟨grammar.slots ++ slots, grammar.expressions ++ expressions⟩
        reserved).outcome = .ok grown ∧
      model.slots <+: grown.slots ∧ model.intents <+: grown.intents ∧
      ∀ name ∈ model.intents.map (·.name), ∀ understood filling,
        grown.decode name understood filling = model.decode name understood filling := by
  cases compiled' : (compile ⟨grammar.slots ++ slots, grammar.expressions ++ expressions⟩
      reserved).outcome with
  | error error =>
      refine .inl ⟨error, rfl, ?_⟩
      obtain ⟨declared, member, blamed, failed⟩ := compile_eq_error compiled'
      rcases List.mem_append.mp member with old | added
      · -- an old declaration builds as before
        obtain ⟨slotsEq, built⟩ := compile_eq_ok compiled
        obtain ⟨intent, -, one⟩ := exists_of_forall₂_left built old
        rw [slotsEq] at one
        have again := @Intent.build_of_more_slots _ _ _ (slots.map (compileSlot reserved)) _ _ one
        rw [← List.map_append, failed] at again
        cases again
      · exact ⟨declared, added, blamed, failed⟩
  | ok grown =>
      obtain ⟨slotsFront, intentsFront⟩ := prefix_of_compile_append compiled compiled'
      refine .inr ⟨grown, rfl, slotsFront, intentsFront, ?_⟩
      intro name known understood filling
      exact decode_of_prefix (grounded_of_compile compiled) slotsFront intentsFront known understood
        filling

/-- A slot that repeats an old name, one that a built-in tag hides, and an intent that repeats an
old name. -/
theorem appended_declarations_undisturbing_paint :
    let grammar : Grammar := ⟨[("type", ["oil"])], [("Paint", ["use $type:kind"])]⟩
    let slots := [("Type", ["ink"]), ("pv.Percent", ["all"])]
    let expressions := [("Paint", ["paint $Type:kind $pv.Percent:level"])]
    let model : Model := ⟨[⟨"Paint", [⟨"kind", .element 0, true⟩]⟩], [⟨"Type", ["oil"]⟩]⟩
    (grammar.compile .rust).outcome = .ok model ∧
    ∃ grown, (compile ⟨grammar.slots ++ slots, grammar.expressions ++ expressions⟩
        .rust).outcome = .ok grown ∧
      ∀ understood filling,
        grown.decode "Paint" understood filling = model.decode "Paint" understood filling := by
  intro grammar slots expressions model
  have compiled : (grammar.compile .rust).outcome = .ok model := by decide +kernel
  refine ⟨compiled, ?_⟩
  rcases appended_declarations_undisturbing compiled slots expressions with
    ⟨error, failed, -⟩ | ⟨grown, compiled', -, -, decoding⟩
  · have succeeds : (compile ⟨grammar.slots ++ slots, grammar.expressions ++ expressions⟩
        .rust).outcome.isOk = true := by decide +kernel
    rw [failed] at succeeds
    cases succeeds
  · exact ⟨grown, compiled', decoding "Paint" (by decide)⟩

end Grammar

end VoiceGrammar
