/-
# What the arguments of a decoding say about variables

An argument `name=text` is cut at its first equals sign (`parseFilling_eq_ok_iff`). A list of
such arguments fills each name with the text that is given last for it
(`Filling.ofPairs_eq_some_iff`), so lists that agree on the last texts describe one filling.
Decoding uses the filling and not the list (`Command.runDecode_congr`): the program does the same
for both, down to what it reads and in which order, and so ends with the same outcome.
-/
import Mathlib.Data.List.Induction
import VoiceGrammar.Command.Run
import VoiceGrammar.Files.FileSystem
import VoiceGrammar.Proofs.Outcome

namespace VoiceGrammar

set_option autoImplicit false

/-! ## One argument -/

namespace Argument

theorem splitAtEquals_append {name : List Char} (plain : '=' ∉ name) (text : List Char) :
    splitAtEquals (name ++ '=' :: text) = (String.ofList name, some (String.ofList text)) := by
  have before : ∀ c ∈ name, (c != '=') = true := by
    intro c member
    simp only [bne_iff_ne, ne_eq]
    rintro rfl
    exact plain member
  rw [splitAtEquals, List.takeWhile_append_of_pos before, List.dropWhile_append_of_pos before]
  simp

theorem splitAtEquals_eq_some {text : List Char} {name value : String}
    (split : splitAtEquals text = (name, some value)) :
    text = name.toList ++ '=' :: value.toList ∧ '=' ∉ name.toList := by
  rw [splitAtEquals, Prod.mk.injEq] at split
  obtain ⟨rfl, behind⟩ := split
  rw [String.toList_ofList]
  have clear : '=' ∉ text.takeWhile (· != '=') := by
    intro member
    simpa using List.all_eq_true.mp List.all_takeWhile '=' member
  refine ⟨?_, clear⟩
  split at behind
  · cases behind
  · rename_i sign rest cut
    cases behind
    obtain rfl : sign = '=' := by
      have stopped := List.head?_dropWhile_not (· != '=') text
      simpa [cut] using stopped
    rw [String.toList_ofList, ← cut, List.takeWhile_append_dropWhile]

end Argument

theorem parseFilling_eq_ok_iff {argument name text : String} :
    parseFilling argument = .ok (name, text) ↔
      argument = name ++ "=" ++ text ∧ name ≠ "" ∧ '=' ∉ name.toList := by
  unfold parseFilling
  constructor
  · intro read
    split at read
    · rename_i found rest split
      obtain ⟨spelled, plain⟩ := Argument.splitAtEquals_eq_some split
      split at read
      · cases read
      · rename_i named
        cases read
        refine ⟨?_, by simpa using named, plain⟩
        rw [← String.toList_inj, spelled]
        simp
    · cases read
  · rintro ⟨rfl, named, plain⟩
    have spelled : (name ++ "=" ++ text).toList = name.toList ++ '=' :: text.toList := by simp
    rw [spelled, Argument.splitAtEquals_append plain]
    simp [named]

/-- An argument of any other form is refused as it stands. -/
theorem parseFilling_eq_error_iff {argument : String} :
    parseFilling argument = .error ⟨argument⟩ ↔
      ¬ ∃ name text, argument = name ++ "=" ++ text ∧ name ≠ "" ∧ '=' ∉ name.toList := by
  simp only [← parseFilling_eq_ok_iff]
  constructor
  · rintro refused ⟨name, text, read⟩
    rw [refused] at read
    cases read
  · intro other
    unfold parseFilling at other ⊢
    split
    · rename_i name text split
      simp only [split] at other
      split
      · rfl
      · rename_i named
        exact absurd ⟨name, text, if_neg named⟩ other
    · rfl

/-! ## Several arguments -/

namespace Filling

/-- Among the pairs, this text is the last for this name. -/
def LastGiven (pairs : List (String × String)) (name text : String) : Prop :=
  ∃ before after, pairs = before ++ (name, text) :: after ∧ name ∉ after.map Prod.fst

/-- Every name is given the same text last, in whichever order and after whichever other texts. -/
def Agree (first second : List (String × String)) : Prop :=
  ∀ name text, LastGiven first name text ↔ LastGiven second name text

theorem ofPairs_concat (pairs : List (String × String)) (pair : String × String) (name : String) :
    ofPairs (pairs ++ [pair]) name = if name = pair.1 then some pair.2 else ofPairs pairs name := by
  obtain ⟨other, text⟩ := pair
  rw [ofPairs, List.reverse_append, List.reverse_singleton, List.singleton_append, List.lookup_cons]
  by_cases same : name = other
  · simp [same]
  · simp [same, beq_eq_false_iff_ne.mpr same, ofPairs]

theorem lastGiven_concat_iff {pairs : List (String × String)} {pair : String × String}
    {name text : String} :
    LastGiven (pairs ++ [pair]) name text ↔
      if name = pair.1 then text = pair.2 else LastGiven pairs name text := by
  obtain ⟨other, last⟩ := pair
  constructor
  · rintro ⟨before, after, split, fresh⟩
    rcases List.eq_nil_or_concat after with rfl | ⟨between, final, rfl⟩
    · obtain ⟨-, rfl, rfl⟩ : pairs = before ∧ other = name ∧ last = text := by
        simpa using List.append_inj' split rfl
      simp
    · rw [List.concat_eq_append, ← List.cons_append, ← List.append_assoc] at split
      obtain ⟨rfl, same⟩ := List.append_inj' split rfl
      obtain rfl : (other, last) = final := by simpa using same
      have apart : name ≠ other := by
        rintro rfl
        apply fresh
        simp
      rw [if_neg apart]
      refine ⟨before, between, rfl, fun listed => fresh ?_⟩
      rw [List.concat_eq_append, List.map_append]
      exact List.mem_append_left _ listed
  · intro given
    split at given
    · rename_i same
      obtain ⟨rfl, rfl⟩ : name = other ∧ text = last := ⟨same, given⟩
      exact ⟨pairs, [], rfl, List.not_mem_nil⟩
    · rename_i apart
      obtain ⟨before, after, rfl, fresh⟩ := given
      refine ⟨before, after ++ [(other, last)], by simp, ?_⟩
      rw [List.map_append, List.mem_append]
      rintro (listed | listed)
      · exact fresh listed
      · exact apart (by simpa using listed)

/-- A list of pairs fills each name with the text that is given last for it. -/
theorem ofPairs_eq_some_iff {pairs : List (String × String)} {name text : String} :
    ofPairs pairs name = some text ↔ LastGiven pairs name text := by
  induction pairs using List.reverseRecOn with
  | nil => simp [ofPairs, LastGiven]
  | append_singleton pairs pair ih =>
      rw [ofPairs_concat, lastGiven_concat_iff]
      split
      · simp [eq_comm]
      · exact ih

theorem agree_iff_ofPairs_eq {first second : List (String × String)} :
    Agree first second ↔ ofPairs first = ofPairs second := by
  simp only [Agree, ← ofPairs_eq_some_iff]
  constructor
  · intro agree
    funext name
    exact Option.ext (agree name)
  · intro same name text
    rw [same]

end Filling

/-! ## Runs -/

/-- Decoding depends on the filling that a list describes and not on the list. -/
theorem Command.runDecode_congr {m : Type → Type} [Monad m] [Files m] (style : Style)
    (quiet : Bool) {grammar : Path} {intent : String} {understood : Bool} {target : Target}
    {first second : List (String × String)} (agree : Filling.Agree first second) :
    (runDecode style quiet ⟨grammar, intent, understood, first, target⟩ : Run m Unit) =
      runDecode style quiet ⟨grammar, intent, understood, second, target⟩ := by
  simp only [runDecode, Filling.agree_iff_ofPairs_eq.mp agree]

theorem runProgram_congr {m : Type → Type} [Monad m] [Files m] {arguments others : List String}
    {style : Style} {quiet verbose understood : Bool} {grammar : Path} {intent : String}
    {target : Target} {first second : List (String × String)}
    (asked : Request.ofArguments? arguments = some (.invoke
      ⟨style, quiet, verbose, .decode ⟨grammar, intent, understood, first, target⟩⟩))
    (alike : Request.ofArguments? others = some (.invoke
      ⟨style, quiet, verbose, .decode ⟨grammar, intent, understood, second, target⟩⟩))
    (agree : Filling.Agree first second) :
    (runProgram arguments : m Outcome) = runProgram others := by
  simp only [runProgram, asked, alike, Command.run, Command.runDecode_congr style quiet agree]

/-! ## Lists of arguments that ask for a decoding -/

/-- The argument that gives an option its value. -/
def attached (name value : String) : String :=
  "--" ++ name ++ "=" ++ value

theorem Argument.ofText_attached {name : String} (plain : '=' ∉ name.toList) (value : String) :
    ofText (attached name value) = .option name (some value) := by
  have spelled : (attached name value).toList =
      '-' :: '-' :: (name.toList ++ '=' :: value.toList) := by simp [attached]
  have split := splitAtEquals_append plain value.toList
  rw [String.ofList_toList, String.ofList_toList] at split
  obtain ⟨first, rest, written⟩ : ∃ first rest, name.toList ++ '=' :: value.toList = first :: rest :=
    List.exists_cons_of_ne_nil (by simp)
  rw [written] at spelled split
  rw [ofText, spelled]
  show option (splitAtEquals (first :: rest)).1 (splitAtEquals (first :: rest)).2 = _
  rw [split]

/-- Arguments of the command that decodes an inference: its intent, whether it was understood, and one
argument for each text that it gives a variable. The grammar stands behind a separator, so that it
may begin with a dash. -/
def decodingArguments (grammar intent : String) (understood : Bool) (target : Target)
    (given : List String) : List String :=
  attached "intent" intent :: attached "target" target.name ::
    ((if understood then [] else ["--not-understood"]) ++
      (given.map (attached "slot") ++ ["--", grammar]))

namespace Occurrences

theorem collect?_attached {known : List (String × OptionKind)} {name : String} {kind : OptionKind}
    (plain : '=' ∉ name.toList) (found : known.lookup name = some kind) (valued : kind ≠ .flag)
    (value : String) (rest : List String) :
    collect? known (attached name value :: rest) =
      (collect? known rest).map (addOption name (some value)) := by
  rw [collect?.eq_def]
  simp only [Argument.ofText_attached plain, found]

theorem collect?_flag {known : List (String × OptionKind)} {argument name : String}
    (read : Argument.ofText argument = .option name none) (found : known.lookup name = some .flag)
    (rest : List String) :
    collect? known (argument :: rest) = (collect? known rest).map (addOption name none) := by
  rw [collect?.eq_def]
  simp only [read, found]

theorem collect?_map_attached {known : List (String × OptionKind)} {name : String}
    {kind : OptionKind} (plain : '=' ∉ name.toList) (found : known.lookup name = some kind)
    (valued : kind ≠ .flag) {rest : List String} {later : Occurrences}
    (collected : collect? known rest = some later) (values : List String) :
    collect? known (values.map (attached name) ++ rest) =
      some { later with options := values.map (fun value => (name, some value)) ++ later.options } := by
  induction values with
  | nil => exact collected
  | cons value values ih =>
      rw [List.map_cons, List.cons_append, collect?_attached plain found valued, ih]
      rfl

/-- What the arguments of a decoding hold. -/
def ofDecoding (grammar intent : String) (understood : Bool) (target : Target)
    (given : List String) : Occurrences where
  options := ("intent", some intent) :: ("target", some target.name) ::
    ((if understood then [] else [("not-understood", none)]) ++
      given.map fun argument => ("slot", some argument))
  operands := [grammar]

section Decoding

variable {grammar intent : String} {understood : Bool} {target : Target} {given : List String}

theorem collect?_decodingArguments {own : List (String × OptionKind)}
    (options : Command.options? "decode" = some own) :
    collect? (own ++ GeneralOptions.known)
      (decodingArguments grammar intent understood target given) =
      some (ofDecoding grammar intent understood target given) := by
  obtain rfl := Option.some.inj options
  generalize listed : [("intent", .single), ("not-understood", .flag), ("slot", .repeated),
    ("target", OptionKind.single)] ++ GeneralOptions.known = known
  have intents : known.lookup "intent" = some .single := by rw [← listed]; rfl
  have targets : known.lookup "target" = some .single := by rw [← listed]; rfl
  have flags : known.lookup "not-understood" = some .flag := by rw [← listed]; rfl
  have slots : known.lookup "slot" = some .repeated := by rw [← listed]; rfl
  have ending : collect? known ["--", grammar] = some ⟨[], [grammar]⟩ := rfl
  have flagged : Argument.ofText "--not-understood" = .option "not-understood" none := by
    decide +kernel
  have filled := collect?_map_attached (by decide) slots (by decide) ending given
  rw [decodingArguments, collect?_attached (by decide) intents (by decide),
    collect?_attached (by decide) targets (by decide)]
  cases understood with
  | true =>
      rw [if_pos rfl, List.nil_append, filled, List.append_nil]
      rfl
  | false =>
      rw [if_neg (by decide), List.singleton_append, collect?_flag flagged flags, filled,
        List.append_nil]
      rfl

theorem values_slot_ofDecoding :
    (ofDecoding grammar intent understood target given).values "slot" = given := by
  cases understood <;> simp [ofDecoding, values, List.filter_map, Function.comp_def]

theorem respects_ofDecoding {own : List (String × OptionKind)}
    (options : Command.options? "decode" = some own) :
    (ofDecoding grammar intent understood target given).respects (own ++ GeneralOptions.known) := by
  cases options
  cases understood <;>
    simp [ofDecoding, respects, count, List.countP_map, Function.comp_def, GeneralOptions.known]

theorem generalOptions_ofDecoding :
    GeneralOptions.ofOccurrences? (ofDecoding grammar intent understood target given) =
      some .none := by
  cases understood <;>
    simp [GeneralOptions.ofOccurrences?, ofDecoding, value?, values, flag, count, List.filter_map,
      List.countP_map, Function.comp_def, GeneralOptions.none]

/-- An empty grammar is refused, whatever the rest. -/
theorem decode?_ofDecoding {pairs : List (String × String)}
    (read : List.Forall₂ (fun argument pair => parseFilling argument = .ok pair) given pairs) :
    Command.decode? (ofDecoding grammar intent understood target given) =
      (Command.path? grammar).map fun path =>
        .decode ⟨path, intent, understood, pairs, target⟩ := by
  have given? : given.mapM (fun argument => (parseFilling argument).toOption) = some pairs := by
    rw [mapM_option_eq_some]
    refine read.imp fun argument pair parsed => ?_
    rw [parsed]
    rfl
  have grammar? : Command.requiredGrammar? [grammar] = Command.path? grammar := by
    rw [Command.requiredGrammar?, Command.grammar?]
    cases Command.path? grammar <;> rfl
  have intent? : (ofDecoding grammar intent understood target given).value? "intent" =
      some intent := by
    cases understood <;> simp [ofDecoding, value?, values]
  have target? : Command.target? (ofDecoding grammar intent understood target given) =
      some (some target) := by
    have found : (ofDecoding grammar intent understood target given).value? "target" =
        some target.name := by
      cases understood <;> simp [ofDecoding, value?, values]
    rw [Command.target?, found]
    cases target <;> rfl
  have understood? :
      (ofDecoding grammar intent understood target given).flag "not-understood" = !understood := by
    cases understood <;>
      simp [ofDecoding, flag, count, List.countP_map, Function.comp_def]
  rw [Command.decode?, values_slot_ofDecoding, intent?, target?, understood?, Bool.not_not]
  show (do
    let grammar ← Command.requiredGrammar? [grammar]
    let filling ← given.mapM fun argument => (parseFilling argument).toOption
    return Command.decode ⟨grammar, intent, understood, filling, target⟩ : Option Command) = _
  rw [grammar?, given?]
  cases Command.path? grammar <;> rfl

end Decoding

end Occurrences

theorem Request.ofArguments?_decodingArguments {grammar intent : String} {understood : Bool}
    {target : Target} {given : List String} {pairs : List (String × String)}
    (read : List.Forall₂ (fun argument pair => parseFilling argument = .ok pair) given pairs) :
    ofArguments? ("decode" :: decodingArguments grammar intent understood target given) =
      (Command.path? grammar).map fun path => .invoke ⟨.text, false, false,
        .decode ⟨path, intent, understood, pairs, target⟩⟩ := by
  have command : Argument.ofText "decode" = .operand "decode" := by decide +kernel
  obtain ⟨own, options⟩ : ∃ own, Command.options? "decode" = some own := ⟨_, rfl⟩
  have accepted : Occurrences.ofArguments? (own ++ GeneralOptions.known)
      (decodingArguments grammar intent understood target given) =
      some (.ofDecoding grammar intent understood target given) :=
    Option.filter_eq_some_iff.mpr
      ⟨Occurrences.collect?_decodingArguments options, Occurrences.respects_ofDecoding options⟩
  rw [ofArguments?, continue?.eq_def]
  simp only [command, ofCommand?, options, accepted, Occurrences.generalOptions_ofDecoding,
    Command.ofOccurrences?, Occurrences.decode?_ofDecoding read, Option.bind_eq_bind,
    Option.bind_some]
  cases Command.path? grammar <;> rfl

/-- **Arguments give variables their texts, and the last text for a name counts.** An argument is
read as a name and a text exactly if it is these with an equals sign between them, the name not
being empty and without an equals sign; any other argument is refused. A list of pairs fills each
name with the text that is given last for it. Two lists of arguments that ask for the same decoding,
but for the pairs, make the program do the same if the pairs agree on the last texts; in
particular this is so if only the arguments that give texts differ. -/
theorem last_filling_counts :
    (∀ argument name text, parseFilling argument = .ok (name, text) ↔
      argument = name ++ "=" ++ text ∧ name ≠ "" ∧ '=' ∉ name.toList) ∧
    (∀ argument, parseFilling argument = .error ⟨argument⟩ ↔
      ¬ ∃ name text, argument = name ++ "=" ++ text ∧ name ≠ "" ∧ '=' ∉ name.toList) ∧
    (∀ pairs name text,
      Filling.ofPairs pairs name = some text ↔ Filling.LastGiven pairs name text) ∧
    ∀ {m : Type → Type} [Monad m] [Files m] (first second : List (String × String)),
      Filling.Agree first second →
      (∀ (arguments others : List String) (style : Style) (quiet verbose understood : Bool)
          (grammar : Path) (intent : String) (target : Target),
        Request.ofArguments? arguments = some (.invoke
          ⟨style, quiet, verbose, .decode ⟨grammar, intent, understood, first, target⟩⟩) →
        Request.ofArguments? others = some (.invoke
          ⟨style, quiet, verbose, .decode ⟨grammar, intent, understood, second, target⟩⟩) →
        (runProgram arguments : m Outcome) = runProgram others) ∧
      ∀ (given other : List String) (grammar intent : String) (understood : Bool) (target : Target),
        List.Forall₂ (fun argument pair => parseFilling argument = .ok pair) given first →
        List.Forall₂ (fun argument pair => parseFilling argument = .ok pair) other second →
        (runProgram ("decode" :: decodingArguments grammar intent understood target given) :
            m Outcome) =
          runProgram ("decode" :: decodingArguments grammar intent understood target other) := by
  refine ⟨fun _ _ _ => parseFilling_eq_ok_iff, fun _ => parseFilling_eq_error_iff,
    fun _ _ _ => Filling.ofPairs_eq_some_iff, ?_⟩
  intro m _ _ first second agree
  constructor
  · intro arguments others style quiet verbose understood grammar intent target asked alike
    exact runProgram_congr asked alike agree
  · intro given other grammar intent understood target read readOther
    have asked := @Request.ofArguments?_decodingArguments grammar intent understood target _ _ read
    have alike :=
      @Request.ofArguments?_decodingArguments grammar intent understood target _ _ readOther
    cases found : Command.path? grammar with
    | none =>
        rw [found] at asked alike
        simp only [runProgram, asked, alike, Option.map_none]
    | some path =>
        rw [found] at asked alike
        exact runProgram_congr asked alike agree

/-- A text with an equals sign in it, and a name that is given twice; the other list has its names
in another order. -/
theorem last_filling_counts_color :
    let given := ["color=red", "color=blue", "note=a=b"]
    let other := ["note=a=b", "color=blue"]
    Filling.Agree [("color", "red"), ("color", "blue"), ("note", "a=b")]
      [("note", "a=b"), ("color", "blue")] ∧
    (runProgram ("decode" :: decodingArguments "paint.yml" "Paint" true .kotlin given) :
        StateM FileSystem Outcome) =
      runProgram ("decode" :: decodingArguments "paint.yml" "Paint" true .kotlin other) := by
  intro given other
  have agree : Filling.Agree [("color", "red"), ("color", "blue"), ("note", "a=b")]
      [("note", "a=b"), ("color", "blue")] := by
    rw [Filling.agree_iff_ofPairs_eq]
    funext name
    by_cases color : name = "color"
    · rw [color]
      rfl
    · simp [Filling.ofPairs, List.lookup_cons, beq_eq_false_iff_ne.mpr color]
  obtain ⟨-, -, -, runs⟩ := last_filling_counts
  refine ⟨agree, (runs _ _ agree).2 given other "paint.yml" "Paint" true .kotlin ?_ ?_⟩
  · refine .cons ?_ (.cons ?_ (.cons ?_ .nil)) <;> rfl
  · refine .cons ?_ (.cons ?_ .nil) <;> rfl

end VoiceGrammar
