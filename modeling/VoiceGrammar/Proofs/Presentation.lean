/-
# How results are shown does not change them

The general options say how a result is shown and nothing else. Arguments that ask for a
command still ask for it when the general options among them are taken out
(`Request.ofArguments?_withoutPresentation`), so two lists of arguments that agree without
them ask for one command. To run it is to get its result and to show that
(`runProgram_of_invoke`). Since the result can be shown in every way, the exit code and the
files come from the result alone (`Outcome.code_ofResult`). A decoder that goes to the
standard output is what the plan makes of the files that are there
(`Command.result_generate_without_out`).
-/
import VoiceGrammar.Proofs.CommandResults

namespace VoiceGrammar

set_option autoImplicit false

/-! ## Arguments without general options -/

/-- The arguments without the general options and their values. Behind a separator everything
is an operand and stays. -/
def withoutPresentation : List String → List String
  | [] => []
  | argument :: rest =>
    match Argument.ofText argument with
    | .separator => argument :: rest
    | .option name attached =>
      match GeneralOptions.known.lookup name, attached with
      | none, _ => argument :: withoutPresentation rest
      | some .flag, _ | some _, some _ => withoutPresentation rest
      | some _, none =>
        match rest with
        | [] => []
        | _ :: later => withoutPresentation later
    | _ => argument :: withoutPresentation rest

theorem Argument.ofText_of_value? {text value : String}
    (taken : Argument.value? text = some value) :
    Argument.ofText text = .operand value := by
  rw [value?] at taken
  split at taken
  · rename_i operand
    rw [operand, Option.some.inj taken]
  · cases taken

section Reading

variable {argument name : String} {attached : Option String} {kind : OptionKind}
  {rest : List String}

theorem withoutPresentation_separator (read : Argument.ofText argument = .separator) :
    withoutPresentation (argument :: rest) = argument :: rest := by
  rw [withoutPresentation.eq_def]
  simp only [read]

theorem withoutPresentation_operand {text : String}
    (read : Argument.ofText argument = .operand text) :
    withoutPresentation (argument :: rest) = argument :: withoutPresentation rest := by
  rw [withoutPresentation.eq_def]
  simp only [read]

theorem withoutPresentation_own (read : Argument.ofText argument = .option name attached)
    (own : GeneralOptions.known.lookup name = none) :
    withoutPresentation (argument :: rest) = argument :: withoutPresentation rest := by
  rw [withoutPresentation.eq_def]
  simp only [read, own]

/-- A general option that does not take the next argument is left out alone. -/
theorem withoutPresentation_general (read : Argument.ofText argument = .option name attached)
    (general : GeneralOptions.known.lookup name = some kind)
    (complete : kind = .flag ↔ attached = none) :
    withoutPresentation (argument :: rest) = withoutPresentation rest := by
  rw [withoutPresentation.eq_def]
  cases attached with
  | none =>
      obtain rfl := complete.mpr rfl
      simp only [read, general]
  | some value => cases kind <;> simp only [read, general]

/-- A general option that takes the next argument is left out with it. -/
theorem withoutPresentation_general_next {next : String}
    (read : Argument.ofText argument = .option name none)
    (general : GeneralOptions.known.lookup name = some kind) (valued : kind ≠ .flag) :
    withoutPresentation (argument :: next :: rest) = withoutPresentation rest := by
  rw [withoutPresentation.eq_def]
  cases kind with
  | flag => exact absurd rfl valued
  | single => simp only [read, general]
  | repeated => simp only [read, general]

end Reading

namespace Occurrences

/-- How arguments come to have these occurrences. -/
inductive Collects (known : List (String × OptionKind)) : List String → Occurrences → Prop where
  | nil : Collects known [] ⟨[], []⟩
  | separator {argument : String} {rest : List String}
    (read : Argument.ofText argument = .separator) : Collects known (argument :: rest) ⟨[], rest⟩
  | operand {argument text : String} {rest : List String} {later : Occurrences}
    (read : Argument.ofText argument = .operand text) (follows : Collects known rest later) :
    Collects known (argument :: rest) (later.addOperand text)
  /-- A flag alone, or another option with its value attached. -/
  | option {argument name : String} {attached : Option String} {kind : OptionKind}
    {rest : List String} {later : Occurrences}
    (read : Argument.ofText argument = .option name attached)
    (listed : known.lookup name = some kind) (complete : kind = .flag ↔ attached = none)
    (follows : Collects known rest later) :
    Collects known (argument :: rest) (later.addOption name attached)
  /-- An option with its value in the next argument. -/
  | optionNext {argument name next value : String} {kind : OptionKind} {rest : List String}
    {later : Occurrences} (read : Argument.ofText argument = .option name none)
    (listed : known.lookup name = some kind) (valued : kind ≠ .flag)
    (taken : Argument.value? next = some value) (follows : Collects known rest later) :
    Collects known (argument :: next :: rest) (later.addOption name (some value))

theorem collect?_eq_some_iff {known : List (String × OptionKind)} {arguments : List String}
    {occurrences : Occurrences} :
    collect? known arguments = some occurrences ↔ Collects known arguments occurrences := by
  constructor
  · intro read
    -- each branch that gives occurrences is one of the rules
    fun_induction collect? known arguments generalizing occurrences <;>
      grind [Collects, Option.map_eq_some_iff]
  · intro collected
    induction collected with
    | nil => rfl
    | separator read =>
        rw [collect?.eq_def]
        simp only [read]
    | operand read _ ih =>
        rw [collect?.eq_def]
        simp only [read, ih, Option.map_some]
    | @option _ _ attached kind _ _ read listed complete _ ih =>
        rw [collect?.eq_def]
        cases kind <;> cases attached <;> simp_all
    | @optionNext _ _ _ _ kind _ _ read listed valued taken _ ih =>
        rw [collect?.eq_def]
        cases kind <;> simp_all

def withoutPresentation (occurrences : Occurrences) : Occurrences :=
  { occurrences with
    options := occurrences.options.filter fun entry =>
      (GeneralOptions.known.lookup entry.1).isNone }

variable (occurrences : Occurrences)

@[simp]
theorem operands_withoutPresentation :
    occurrences.withoutPresentation.operands = occurrences.operands := rfl

variable {name : String}

theorem withoutPresentation_addOption_of_none (own : GeneralOptions.known.lookup name = none)
    (value : Option String) :
    (occurrences.addOption name value).withoutPresentation =
      occurrences.withoutPresentation.addOption name value := by
  simp [withoutPresentation, addOption, own]

theorem withoutPresentation_addOption_of_some {kind : OptionKind}
    (general : GeneralOptions.known.lookup name = some kind) (value : Option String) :
    (occurrences.addOption name value).withoutPresentation = occurrences.withoutPresentation := by
  simp [withoutPresentation, addOption, general]

/-- The occurrences of an option of the command itself all stay. -/
theorem filter_withoutPresentation (own : GeneralOptions.known.lookup name = none) :
    occurrences.withoutPresentation.options.filter (·.1 == name) =
      occurrences.options.filter (·.1 == name) := by
  rw [withoutPresentation, List.filter_filter]
  apply List.filter_congr
  intro entry _
  by_cases same : entry.1 = name <;> simp [same, own]

theorem values_withoutPresentation (own : GeneralOptions.known.lookup name = none) :
    occurrences.withoutPresentation.values name = occurrences.values name := by
  rw [values, values, filter_withoutPresentation occurrences own]

theorem value?_withoutPresentation (own : GeneralOptions.known.lookup name = none) :
    occurrences.withoutPresentation.value? name = occurrences.value? name := by
  rw [value?, value?, values_withoutPresentation occurrences own]

theorem flag_withoutPresentation (own : GeneralOptions.known.lookup name = none) :
    occurrences.withoutPresentation.flag name = occurrences.flag name := by
  rw [flag, flag, count, count, List.countP_eq_length_filter, List.countP_eq_length_filter,
    filter_withoutPresentation occurrences own]

/-- No occurrence of a general option stays. -/
theorem filter_withoutPresentation_eq_nil {kind : OptionKind}
    (general : GeneralOptions.known.lookup name = some kind) :
    occurrences.withoutPresentation.options.filter (·.1 == name) = [] := by
  rw [withoutPresentation, List.filter_filter, List.filter_eq_nil_iff]
  intro entry _
  by_cases same : entry.1 = name <;> simp [same, general]

theorem respects_withoutPresentation {known : List (String × OptionKind)}
    (respected : occurrences.respects known) : occurrences.withoutPresentation.respects known := by
  rw [respects, List.all_eq_true] at respected ⊢
  intro entry listed
  have fewer : occurrences.withoutPresentation.count entry.1 ≤ occurrences.count entry.1 :=
    List.filter_sublist.countP_le
  have held := respected entry listed
  simp only [Bool.or_eq_true, decide_eq_true_eq] at held ⊢
  exact held.imp_right (Nat.le_trans fewer)

variable {occurrences} {own : List (String × OptionKind)}

/-- A known option that is no general one is one of the command. -/
theorem lookup_append_general
    (apart : ∀ name, (GeneralOptions.known.lookup name).isSome → own.lookup name = none)
    {kind general : OptionKind} (known : (own ++ GeneralOptions.known).lookup name = some kind)
    (found : GeneralOptions.known.lookup name = some general) : general = kind := by
  rw [List.lookup_append, apart name (by rw [found]; rfl), found] at known
  exact Option.some.inj known

/-- Reading what is left gives what is left of the reading. -/
theorem Collects.withoutPresentation
    (apart : ∀ name, (GeneralOptions.known.lookup name).isSome → own.lookup name = none)
    {arguments : List String}
    (collected : Collects (own ++ GeneralOptions.known) arguments occurrences) :
    Collects (own ++ GeneralOptions.known) (VoiceGrammar.withoutPresentation arguments)
      occurrences.withoutPresentation := by
  induction collected with
  | nil => exact .nil
  | separator read =>
      rw [withoutPresentation_separator read]
      exact .separator read
  | operand read _ ih =>
      rw [withoutPresentation_operand read]
      exact .operand read ih
  | @option _ name _ _ _ _ read listed complete _ ih =>
      cases found : GeneralOptions.known.lookup name with
      | none =>
          rw [withoutPresentation_own read found, withoutPresentation_addOption_of_none _ found]
          exact .option read listed complete ih
      | some general =>
          obtain rfl := lookup_append_general apart listed found
          rw [withoutPresentation_general read found complete,
            withoutPresentation_addOption_of_some _ found]
          exact ih
  | @optionNext _ name _ _ _ _ _ read listed valued taken _ ih =>
      cases found : GeneralOptions.known.lookup name with
      | none =>
          rw [withoutPresentation_own read found,
            withoutPresentation_operand (Argument.ofText_of_value? taken),
            withoutPresentation_addOption_of_none _ found]
          exact .optionNext read listed valued taken ih
      | some general =>
          obtain rfl := lookup_append_general apart listed found
          rw [withoutPresentation_general_next read found valued,
            withoutPresentation_addOption_of_some _ found]
          exact ih

end Occurrences

/-! ## What is asked for -/

theorem GeneralOptions.lookup_known_isSome {name : String}
    (general : (known.lookup name).isSome) :
    name = "output" ∨ name = "quiet" ∨ name = "verbose" := by
  by_contra other
  push Not at other
  simp [known, List.lookup_cons, beq_eq_false_iff_ne.mpr other.1,
    beq_eq_false_iff_ne.mpr other.2.1, beq_eq_false_iff_ne.mpr other.2.2] at general

theorem GeneralOptions.ofOccurrences?_withoutPresentation (occurrences : Occurrences) :
    ofOccurrences? occurrences.withoutPresentation = some .none := by
  have gone : ∀ (name : String) (kind : OptionKind), known.lookup name = some kind →
      occurrences.withoutPresentation.value? name = Option.none ∧
      occurrences.withoutPresentation.flag name = false := by
    intro name kind general
    have none := occurrences.filter_withoutPresentation_eq_nil general
    rw [Occurrences.value?, Occurrences.values, Occurrences.flag, Occurrences.count,
      List.countP_eq_length_filter, none]
    exact ⟨rfl, rfl⟩
  rw [ofOccurrences?, (gone "output" .single rfl).1, (gone "quiet" .flag rfl).2,
    (gone "verbose" .flag rfl).2]
  rfl

namespace Command

/-- No command has an option of its own under the name of a general one. -/
theorem lookup_options? {command name : String} {own : List (String × OptionKind)}
    (options : options? command = some own) (general : (GeneralOptions.known.lookup name).isSome) :
    own.lookup name = none := by
  unfold options? at options
  split at options <;> cases options <;>
    rcases GeneralOptions.lookup_known_isSome general with rfl | rfl | rfl <;> rfl

theorem ofOccurrences?_withoutPresentation (name : String) (occurrences : Occurrences) :
    ofOccurrences? name occurrences.withoutPresentation = ofOccurrences? name occurrences := by
  unfold ofOccurrences?
  split
  · simp (disch := decide) only [generate?, target?, Occurrences.operands_withoutPresentation,
      Occurrences.value?_withoutPresentation, Occurrences.values_withoutPresentation]
  · simp (disch := decide) only [check?, target?, Occurrences.operands_withoutPresentation,
      Occurrences.value?_withoutPresentation]
  · simp (disch := decide) only [decode?, target?, Occurrences.operands_withoutPresentation,
      Occurrences.value?_withoutPresentation, Occurrences.values_withoutPresentation,
      Occurrences.flag_withoutPresentation]
  · rfl

end Command

namespace Request

/-- The same request, with results shown as text. -/
def plain : Request → Request
  | version => version
  | invoke invocation => invoke ⟨.text, false, false, invocation.command⟩

theorem ofCommand?_withoutPresentation {earlier : GeneralOptions} {name : String}
    {arguments : List String} {request : Request}
    (asked : ofCommand? earlier name arguments = some request) :
    ofCommand? .none name (withoutPresentation arguments) = some request.plain := by
  unfold ofCommand? at asked ⊢
  simp only [Option.bind_eq_bind, Option.bind_eq_some_iff, Option.pure_def,
    Option.some.injEq] at asked ⊢
  obtain ⟨own, options, occurrences, read, general, -, command, described, rfl⟩ := asked
  obtain ⟨collected, respected⟩ := Option.filter_eq_some_iff.mp read
  refine ⟨own, options, occurrences.withoutPresentation, ?_, .none,
    GeneralOptions.ofOccurrences?_withoutPresentation occurrences, command, ?_, rfl⟩
  · exact Option.filter_eq_some_iff.mpr
      ⟨Occurrences.collect?_eq_some_iff.mpr
          (.withoutPresentation (fun _ => Command.lookup_options? options)
            (Occurrences.collect?_eq_some_iff.mp collected)),
        occurrences.respects_withoutPresentation respected⟩
  · rw [Command.ofOccurrences?_withoutPresentation, described]

/-- How arguments come to ask for something. -/
inductive Asks : List String → Request → Prop where
  | command {earlier : GeneralOptions} {argument name : String} {rest : List String}
    {request : Request} (read : Argument.ofText argument = .operand name)
    (asked : ofCommand? earlier name rest = some request) : Asks (argument :: rest) request
  | versionLetter {argument text : String} {rest : List String}
    (read : Argument.ofText argument = .letters text) (first : text.toList.head? = some 'V') :
    Asks (argument :: rest) .version
  | version {argument : String} {rest : List String}
    (read : Argument.ofText argument = .option "version" none) : Asks (argument :: rest) .version
  /-- A general option that is complete, before what asks. -/
  | general {argument name : String} {attached : Option String} {kind : OptionKind}
    {rest : List String} {request : Request}
    (read : Argument.ofText argument = .option name attached)
    (listed : GeneralOptions.known.lookup name = some kind)
    (complete : kind = .flag ↔ attached = none) (later : Asks rest request) :
    Asks (argument :: rest) request
  /-- A general option and its value, before what asks. -/
  | generalNext {argument name next : String} {kind : OptionKind} {rest : List String}
    {request : Request} (read : Argument.ofText argument = .option name none)
    (listed : GeneralOptions.known.lookup name = some kind) (valued : kind ≠ .flag)
    (later : Asks rest request) : Asks (argument :: next :: rest) request

theorem asks_of_continue? {general : GeneralOptions} {arguments : List String} {request : Request}
    (asked : continue? general arguments = some request) : Asks arguments request := by
  have output : GeneralOptions.known.lookup "output" = some .single := rfl
  have quiet : GeneralOptions.known.lookup "quiet" = some .flag := rfl
  have verbose : GeneralOptions.known.lookup "verbose" = some .flag := rfl
  -- each branch that does not reject the arguments is one of the rules
  fun_induction continue? general arguments <;> grind [Asks, Option.bind_eq_some_iff]

/-- What is left of the arguments asks for the same. -/
theorem Asks.withoutPresentation {arguments : List String} {request : Request}
    (asks : Asks arguments request) :
    continue? .none (withoutPresentation arguments) = some request.plain := by
  induction asks with
  | command read asked =>
      rw [withoutPresentation_operand read, continue?.eq_def]
      simp only [read]
      exact ofCommand?_withoutPresentation asked
  | versionLetter read first =>
      rw [withoutPresentation.eq_def, continue?.eq_def]
      simp [read, first, plain]
  | version read =>
      rw [withoutPresentation_own read rfl, continue?.eq_def]
      simp only [read]
      rfl
  | general read listed complete _ ih =>
      rw [withoutPresentation_general read listed complete]
      exact ih
  | generalNext read listed valued _ ih =>
      rw [withoutPresentation_general_next read listed valued]
      exact ih

theorem ofArguments?_withoutPresentation {arguments : List String} {request : Request}
    (asked : ofArguments? arguments = some request) :
    ofArguments? (withoutPresentation arguments) = some request.plain :=
  (asks_of_continue? asked).withoutPresentation

/-- Arguments that agree without general options ask for the same command. -/
theorem exists_invoke_of_alike {arguments others : List String} {invocation : Invocation}
    (asked : ofArguments? arguments = some (.invoke invocation))
    (accepted : (ofArguments? others).isSome)
    (alike : withoutPresentation arguments = withoutPresentation others) :
    ∃ other : Invocation, ofArguments? others = some (.invoke other) ∧
      other.command = invocation.command := by
  obtain ⟨request, asks⟩ := Option.isSome_iff_exists.mp accepted
  have left := ofArguments?_withoutPresentation asked
  rw [alike, ofArguments?_withoutPresentation asks, Option.some.injEq] at left
  cases request with
  | version => cases left
  | invoke other => exact ⟨other, asks, by injection left with same; injection same⟩

end Request

/-! ## Runs -/

/-- The operation leaves all files as they are. -/
def ReadsOnly {α : Type} (operation : StateM FileSystem α) : Prop :=
  ∀ fs, (operation.run fs).2 = fs

namespace ReadsOnly

theorem pure {α : Type} (value : α) : ReadsOnly (pure value) := fun _ => rfl

theorem bind {α β : Type} {operation : StateM FileSystem α} {next : α → StateM FileSystem β}
    (first : ReadsOnly operation) (follows : ∀ value, ReadsOnly (next value)) :
    ReadsOnly (operation >>= next) := by
  intro fs
  rw [StateT.run_bind]
  exact (follows _ _).trans (first fs)

theorem readText (path : Path) :
    ReadsOnly (Files.readText path : StateM FileSystem (Except IoError String)) := by
  refine bind (fun _ => rfl) fun content => ?_
  split
  · exact pure _
  · split <;> exact pure _

theorem readGrammar (path : Path) :
    ReadsOnly (Grammar.read path : StateM FileSystem (Logged Grammar.ReadError Grammar)) := by
  unfold Grammar.read
  split
  · exact pure _
  · refine bind (readText path) fun text => ?_
    split <;> exact pure _

theorem readSettings (path : Path) :
    ReadsOnly (Settings.read path : StateM FileSystem (Except Settings.Error Settings)) := by
  refine bind (readText path) fun text => ?_
  split
  · exact pure _
  · split <;> exact pure _

theorem loadSettings (named : Option Path) :
    ReadsOnly
      (Command.loadSettings named : StateM FileSystem (Logged Settings.Error Settings)) := by
  unfold Command.loadSettings
  refine bind (fun _ => rfl) fun there => ?_
  split
  · exact bind (readSettings _) fun _ => pure _
  · exact pure _

end ReadsOnly

/-- What the options of the command and the settings of the project plan, unless there is
something wrong with the settings. -/
def GenerateOptions.plan? (options : GenerateOptions) (fs : FileSystem) : Option GenerationPlan :=
  let loaded := (Command.loadSettings options.settings :
    StateM FileSystem (Logged Settings.Error Settings)).run fs
  loaded.1.outcome.toOption.map (GenerationPlan.merge options)

/-- The decoder that a plan makes of the grammar that is there. -/
def GenerationPlan.decoder? (plan : GenerationPlan) (fs : FileSystem) : Option String := do
  let read := (Grammar.read (← plan.grammar) :
    StateM FileSystem (Logged Grammar.ReadError Grammar)).run fs
  ((← read.1.outcome.toOption).decoderText plan.target plan.package).outcome.toOption

namespace Command

/-- A plan without an output file comes to its decoder. -/
theorem planResult_without_out {plan : GenerationPlan} (noFile : plan.out = none)
    (fs : FileSystem) :
    ∃ result : Logged CommandError Report,
      (planResult plan : StateM FileSystem (Logged CommandError Report)).run fs = (result, fs) ∧
      ((∃ text, plan.decoder? fs = some text ∧ result.outcome = .ok (.decoder text)) ∨
        (plan.decoder? fs = none ∧ ∃ error, result.outcome = .error error)) := by
  unfold planResult GenerationPlan.decoder?
  cases plan.grammar with
  | none => exact ⟨_, rfl, .inr ⟨rfl, _, rfl⟩⟩
  | some path =>
      have kept := ReadsOnly.readGrammar path fs
      simp only [StateT.run_bind, Option.bind_eq_bind, Option.bind_some]
      rcases read : (Grammar.read path :
        StateM FileSystem (Logged Grammar.ReadError Grammar)).run fs with ⟨⟨events, outcome⟩, after⟩
      rw [read] at kept
      obtain rfl : fs = after := kept.symm
      rcases outcome with error | grammar
      · exact ⟨_, rfl, .inr ⟨rfl, _, rfl⟩⟩
      · simp only [Logged.andThen, Logged.mapError, decoderResult, noFile]
        refine ⟨_, rfl, ?_⟩
        let made := grammar.decoderText plan.target plan.package
        show (∃ text, made.outcome.toOption = some text ∧ _) ∨ (made.outcome.toOption = none ∧ _)
        simp only [Logged.bind]
        cases made.outcome with
        | error error => exact .inr ⟨rfl, _, rfl⟩
        | ok text => exact .inl ⟨text, rfl, rfl⟩

theorem result_generate_without_out {options : GenerateOptions} {plan : GenerationPlan}
    {fs : FileSystem} (planned : options.plan? fs = some plan) (noFile : plan.out = none) :
    ∃ result : Logged CommandError Report,
      ((Command.generate options).result : StateM FileSystem (Logged CommandError Report)).run fs =
        (result, fs) ∧
      ((∃ text, plan.decoder? fs = some text ∧ result.outcome = .ok (.decoder text)) ∨
        (plan.decoder? fs = none ∧ ∃ error, result.outcome = .error error)) := by
  have kept := ReadsOnly.loadSettings options.settings fs
  unfold GenerateOptions.plan? at planned
  simp only [result, generateResult, StateT.run_bind]
  rcases loaded : (loadSettings options.settings :
    StateM FileSystem (Logged Settings.Error Settings)).run fs with ⟨⟨events, outcome⟩, after⟩
  rw [loaded] at kept planned
  obtain rfl : fs = after := kept.symm
  rcases outcome with error | settings
  · cases planned
  · cases planned
    obtain ⟨made, ran, decoder⟩ := planResult_without_out noFile fs
    refine ⟨⟨events ++ made.events, made.outcome⟩, ?_, decoder⟩
    show StateT.run (planResult (.merge options settings) >>= _) fs = _
    rw [StateT.run_bind, ran]
    rfl

end Command

namespace Outcome

variable {invocation : Invocation} {result : Logged CommandError Report}

/-- A result that can be shown decides on the exit code. -/
theorem code_ofResult (showable : result.Settles Report.IsShowable) :
    (ofResult invocation result).code = match result.outcome with | .ok _ => 0 | .error _ => 1 := by
  unfold Logged.Settles at showable
  unfold ofResult
  cases ended : result.outcome with
  | error error =>
      rw [ended] at showable
      simp [show error.isMissingSlot = false from showable]
  | ok report =>
      rw [ended] at showable
      obtain ⟨text, shown⟩ := showable invocation.style
      simp only [shown]
      split <;> rfl

theorem output_of_error {error : CommandError} (failed : result.outcome = .error error) :
    (ofResult invocation result).output = "" := by
  simp only [ofResult, failed]
  split <;> rfl

theorem output_of_decoder {text : String} (made : result.outcome = .ok (.decoder text)) :
    (ofResult invocation result).output = text := by
  simp [ofResult, made, Report.isSuppressed, Report.form?]

end Outcome

/-- **How results are shown does not change them.** Take two lists of arguments, the first of which
asks for a command, that are both accepted and agree when the general options are taken out. The
second asks for that command too; both runs end with the same code, 0 or 1, and leave the same
files; a run that fails prints nothing on the standard output. If a decoder is to be generated and
no output file is planned, then no file changes and both runs print the decoder, or both fail
because the plan makes none. -/
theorem presentation_never_matters {first second : List String} {invocation : Invocation}
    (asked : Request.ofArguments? first = some (.invoke invocation))
    (accepted : (Request.ofArguments? second).isSome)
    (alike : withoutPresentation first = withoutPresentation second) (fs : FileSystem) :
    let one := (runProgram first : StateM FileSystem Outcome).run fs
    let two := (runProgram second : StateM FileSystem Outcome).run fs
    (∃ other : Invocation, Request.ofArguments? second = some (.invoke other) ∧
      other.command = invocation.command) ∧
    one.1.code = two.1.code ∧ (one.1.code = 0 ∨ one.1.code = 1) ∧ one.2 = two.2 ∧
    (one.1.code = 1 → one.1.output = "" ∧ two.1.output = "") ∧
    ∀ options plan, invocation.command = .generate options → options.plan? fs = some plan →
      plan.out = none → one.2 = fs ∧
      ((∃ text, plan.decoder? fs = some text ∧ one.1.code = 0 ∧
          one.1.output = text ∧ two.1.output = text) ∨
        (plan.decoder? fs = none ∧ one.1.code = 1)) := by
  intro one two
  obtain ⟨other, asks, same⟩ := Request.exists_invoke_of_alike asked accepted alike
  have showable := Command.result_showable invocation.command fs
  rcases ran : (invocation.command.result : StateM FileSystem (Logged CommandError Report)).run fs
    with ⟨result, after⟩
  rw [ran] at showable
  have oneRan : one = (.ofResult invocation result, after) := by
    simp only [one, runProgram_of_invoke asked, StateT.run_map, ran]
    rfl
  have twoRan : two = (.ofResult other result, after) := by
    simp only [two, runProgram_of_invoke asks, same, StateT.run_map, ran]
    rfl
  rw [oneRan, twoRan]
  simp only [Outcome.code_ofResult showable]
  refine ⟨⟨other, asks, same⟩, trivial, ?_, trivial, ?_, ?_⟩
  · cases result.outcome with
    | ok report => exact .inl rfl
    | error error => exact .inr rfl
  · intro failed
    cases ended : result.outcome with
    | ok report => simp [ended] at failed
    | error error => exact ⟨Outcome.output_of_error ended, Outcome.output_of_error ended⟩
  · intro options plan generates planned noFile
    obtain ⟨reached, reaching, decoder⟩ := Command.result_generate_without_out planned noFile
    rw [← generates, ran] at reaching
    cases reaching
    refine ⟨rfl, ?_⟩
    rcases decoder with ⟨text, made, printed⟩ | ⟨none, error, failed⟩
    · exact .inl ⟨text, made, by simp only [printed], Outcome.output_of_decoder printed,
        Outcome.output_of_decoder printed⟩
    · exact .inr ⟨none, by simp only [failed]⟩

/-- General options on both sides of the command, with the value attached and apart; the second
list of arguments asks for what the first one suppresses. -/
theorem presentation_never_matters_paint :
    let first := ["--output", "json", "generate", "--target", "kotlin", "--quiet", "paint.json"]
    let second := ["--verbose", "generate", "--target", "kotlin", "--output=text", "paint.json"]
    let fs := (FileSystem.withWorkingDirectory ["home"]).insert ["home", "paint.json"]
      (.file "\x7b\"context\": \x7b\"expressions\": \x7b\"Paint\": [\"paint it\"]\x7d\x7d\x7d".toUTF8)
    withoutPresentation first = withoutPresentation second ∧
    ∃ one two : Outcome, (runProgram first : StateM FileSystem Outcome).run fs = (one, fs) ∧
      (runProgram second : StateM FileSystem Outcome).run fs = (two, fs) ∧
      one.code = 0 ∧ two.code = 0 ∧ one.output = two.output := by
  intro first second fs
  let options : GenerateOptions := ⟨some ⟨"paint.json"⟩, some .kotlin, none, none, [], none⟩
  have asked : Request.ofArguments? first =
      some (.invoke ⟨.json, true, false, .generate options⟩) := by decide +kernel
  have alike : withoutPresentation first = withoutPresentation second := by decide +kernel
  have planned : options.plan? fs = some ⟨some ⟨"paint.json"⟩, .kotlin, none, none⟩ := by
    decide +kernel
  have succeeded : ((runProgram first : StateM FileSystem Outcome).run fs).1.code = 0 := by
    decide +kernel
  have runs := presentation_never_matters asked (by decide +kernel) alike fs
  -- The two runs are named and not evaluated from here on.
  generalize (runProgram first : StateM FileSystem Outcome).run fs = one at runs succeeded ⊢
  generalize (runProgram second : StateM FileSystem Outcome).run fs = two at runs ⊢
  obtain ⟨-, same, -, files, -, decoder⟩ := runs
  obtain ⟨kept, ⟨text, -, -, printed, again⟩ | ⟨-, failed⟩⟩ := decoder options _ rfl planned rfl
  · exact ⟨alike, one.1, two.1, Prod.ext rfl kept, Prod.ext rfl (files.symm.trans kept), succeeded,
      same.symm.trans succeeded, printed.trans again.symm⟩
  · cases succeeded.symm.trans failed

end VoiceGrammar
