/-
# What a command comes to

Apart from how it is shown, a command comes to a report or to an error (`Command.result`). A
run is told the style and whether to be quiet at every step, and could stop or go on because
of them. It does not: running a command is to get its result and then to show it
(`Command.run_eq`).

Showing a result succeeds or fails with it, unless a slot is missing: then the run is aborted,
and a quiet one may not even notice. So it matters that models are compiled. They are grounded,
and whatever the files are, the result of a command can be shown (`Command.result_showable`).
-/
import VoiceGrammar.Command.Run
import VoiceGrammar.Proofs.GeneratedFile
import VoiceGrammar.Proofs.Grounded

namespace VoiceGrammar

set_option autoImplicit false

/-! ## Results -/

/-- What a command that succeeds has found. -/
inductive Report where
  | compiled (model : Model)
  | decoded (result : Decoded)
  | decoder (text : String)
  | written (file : WrittenDecoder)

namespace Report

/-- The text of a report in a style. -/
def form? : Report → Style → Option String
  | compiled model, .text => model.summary?
  | compiled model, .json => model.toJson?.map (·.pretty ++ "\n")
  | decoded result, .text => some result.summary
  | decoded result, .json => some (result.toJson.pretty ++ "\n")
  | decoder text, _ => some text
  | written file, .text => some file.summary
  | written file, .json => some (file.toJson.compact ++ "\n")

/-- Quiet does not suppress a decoder. -/
def isSuppressed (quiet : Bool) : Report → Bool
  | decoder _ => false
  | _ => quiet

end Report

/-- Go on with the value of a computation. -/
def Logged.andThen {m : Type → Type} [Monad m] {ε α β : Type} (first : Logged ε α)
    (next : α → m (Logged ε β)) : m (Logged ε β) := do
  match first.outcome with
  | .ok value =>
    let second ← next value
    return ⟨first.events ++ second.events, second.outcome⟩
  | .error error => return ⟨first.events, .error error⟩

namespace Command

section Results

variable {m : Type → Type} [Monad m] [Files m]

/-- The model of a grammar file. -/
def modelOf (path : Path) (target : Target) : m (Logged CommandError Model) := do
  let read : Logged Grammar.ReadError Grammar ← Grammar.read path
  return (read.mapError .grammar).bind fun grammar =>
    (grammar.compile target.reserved).mapError .compile

def checkResult (path : Path) (target : Target) : m (Logged CommandError Report) := do
  let loaded : Logged CommandError Model ← modelOf path target
  return loaded.bind fun model => .ok (.compiled model)

def decodeResult (options : DecodeOptions) : m (Logged CommandError Report) := do
  let loaded : Logged CommandError Model ← modelOf options.grammar options.target
  return loaded.bind fun model =>
    let result := model.decode options.intent options.understood (.ofPairs options.filling)
    ((Logged.ofExcept result).mapError .decode).bind fun decoded => .ok (.decoded decoded)

/-- What a plan makes of a grammar. -/
def decoderResult (plan : GenerationPlan) (grammar : Grammar) : m (Logged CommandError Report) := do
  match plan.out with
  | none =>
    return ((grammar.decoderText plan.target plan.package).mapError .generation).bind
      fun text => .ok (.decoder text)
  | some out =>
    let made : Logged GenerationError Unit ← grammar.generate plan.target plan.package out
    return (made.mapError .generation).bind
      fun _ => .ok (.written ⟨out, plan.target, plan.package⟩)

def planResult (plan : GenerationPlan) : m (Logged CommandError Report) := do
  match plan.grammar with
  | none => return .fail .noGrammar
  | some path =>
    let read : Logged Grammar.ReadError Grammar ← Grammar.read path
    (read.mapError .grammar).andThen (decoderResult plan)

def generateResult (options : GenerateOptions) : m (Logged CommandError Report) := do
  let loaded : Logged Settings.Error Settings ← loadSettings options.settings
  (loaded.mapError .settings).andThen fun settings => planResult (.merge options settings)

/-- What a command comes to. -/
def result : Command → m (Logged CommandError Report)
  | .generate options => generateResult options
  | .check path target => checkResult path target
  | .decode options => decodeResult options

end Results

end Command

/-! ## Runs -/

namespace Run

theorem ext {m : Type → Type} {α : Type} {first second : Run m α}
    (same : ∀ console, first.run.run console = second.run.run console) : first = second :=
  ExceptT.ext (StateT.ext same)

variable {m : Type → Type} [Monad m] [LawfulMonad m] {α β : Type}

theorem run_modify (f : Console → Console) (console : Console) :
    (modify f : Run m PUnit).run.run console = pure (.ok ⟨⟩, f console) := by
  show (do let done ← (pure (PUnit.unit, f console) : m _); pure (Except.ok done.1, done.2)) = _
  rw [pure_bind]

theorem run_modify_bind (f : Console → Console) (next : PUnit → Run m β) (console : Console) :
    (modify f >>= next).run.run console = (next ⟨⟩).run.run (f console) := by
  rw [ExceptT.run_bind, StateT.run_bind, run_modify, pure_bind]

theorem run_liftM_bind (operation : m α) (next : α → Run m β) (console : Console) :
    ((liftM operation : Run m α) >>= next).run.run console =
      operation >>= fun value => (next value).run.run console := by
  have lifted : (liftM operation : Run m α).run.run console =
      (fun value => (.ok value, console)) <$> operation := by
    simp [liftM, monadLift, MonadLift.monadLift]
  rw [ExceptT.run_bind, StateT.run_bind, lifted, bind_map_left]

theorem exit_bind (code : Nat) (next : α → Run m β) : exit code >>= next = exit code := by
  apply ExceptT.ext
  simp [exit]

theorem abort_bind (next : α → Run m β) : abort >>= next = abort := by
  apply ExceptT.ext
  simp [abort]

theorem log_append (first second : List Event) :
    (log (first ++ second) : Run m Unit) = log first >>= fun _ => log second := by
  apply ext
  intro console
  rw [log, log, run_modify_bind]
  simp only [log, run_modify, List.filter_append, List.append_assoc]

theorem log_nil : (log [] : Run m Unit) = pure () := by
  apply ext
  intro console
  rw [log, run_modify, List.filter_nil, List.append_nil]
  rfl

/-- Events do not wait for an operation. -/
theorem log_liftM (events : List Event) (operation : m α) (next : α → Run m β) :
    (log events >>= fun _ => (liftM operation : Run m α) >>= next) =
      liftM operation >>= fun value => log events >>= fun _ => next value := by
  apply ext
  intro console
  simp only [log, run_modify_bind, run_liftM_bind]

end Run

namespace Command

variable {m : Type → Type} [Monad m] (style : Style) (quiet : Bool) {α β ε : Type}

theorem settle_mapError (wrap : ε → CommandError) (step : Logged ε α) :
    (settle style quiet id (step.mapError wrap) : Run m α) = settle style quiet wrap step := by
  simp only [settle, Logged.mapError]
  cases step.outcome <;> rfl

variable [LawfulMonad m]

theorem stop_bind (error : CommandError) (next : α → Run m β) :
    stop style quiet error >>= next = stop style quiet error := by
  unfold stop
  split
  · exact Run.abort_bind next
  · rw [bind_assoc]
    simp only [Run.exit_bind]

theorem settle_ok (value : α) : (settle style quiet id (.ok value) : Run m α) = pure value := by
  simp only [settle, Logged.ok, Run.log_nil, pure_bind]

theorem settle_fail (error : CommandError) :
    (settle style quiet id (.fail error) : Run m α) = stop style quiet error := by
  simp only [settle, Logged.fail, Run.log_nil, pure_bind, id]

theorem settle_bind (first : Logged CommandError α) (next : α → Logged CommandError β) :
    (settle style quiet id (first.bind next) : Run m β) =
      settle style quiet id first >>= fun value => settle style quiet id (next value) := by
  rcases first with ⟨events, outcome⟩
  cases outcome with
  | error error =>
      simp only [settle, Logged.bind, bind_assoc, stop_bind]
  | ok value =>
      simp only [settle, Logged.bind, Run.log_append, bind_assoc, pure_bind]

end Command

/-! ## Showing a result -/

/-- Print a report where it is not suppressed. -/
def Report.print {m : Type → Type} [Monad m] (style : Style) (quiet : Bool) (report : Report) :
    Run m Unit := do
  if report.isSuppressed quiet then return
  Run.print (← Run.found (report.form? style))

theorem Report.print_decoder {m : Type → Type} [Monad m] [LawfulMonad m] (style : Style)
    (quiet : Bool) (text : String) :
    ((Report.decoder text).print style quiet : Run m Unit) = Run.print text := by
  simp [Report.print, isSuppressed, form?, Run.found]

/-- Stop because of the error, or show the report. -/
def Command.conclude {m : Type → Type} [Monad m] (style : Style) (quiet : Bool)
    (result : Logged CommandError Report) : Run m Unit := do
  let report ← settle style quiet id result
  report.print style quiet

namespace Command

variable {m : Type → Type} [Monad m] [LawfulMonad m] (style : Style) (quiet : Bool)

theorem conclude_andThen {α : Type} (first : Logged CommandError α)
    (next : α → m (Logged CommandError Report)) :
    (liftM (first.andThen next) >>= conclude style quiet : Run m Unit) =
      settle style quiet id first >>= fun value => liftM (next value) >>= conclude style quiet := by
  rcases first with ⟨events, outcome⟩
  cases outcome with
  | error error =>
      simp only [conclude, settle, Logged.andThen, liftM_pure, pure_bind, bind_assoc, stop_bind]
  | ok value =>
      -- the events come before the operation in a run, and behind it where there is none
      simp only [conclude, settle, Logged.andThen, liftM_bind, liftM_pure, bind_assoc, pure_bind,
        Run.log_append, Run.log_liftM]

variable [Files m]

theorem loadModel_eq (path : Path) (target : Target) :
    (loadModel style quiet path target : Run m Model) =
      liftM (modelOf path target : m (Logged CommandError Model)) >>= settle style quiet id := by
  simp only [loadModel, loadGrammar, modelOf, liftM_bind, liftM_pure, bind_assoc, pure_bind,
    settle_bind, settle_mapError]

theorem runCheck_eq (path : Path) (target : Target) :
    (runCheck style quiet path target : Run m Unit) =
      liftM (checkResult path target : m (Logged CommandError Report)) >>=
        conclude style quiet := by
  simp only [runCheck, loadModel_eq, checkResult, conclude, liftM_bind, liftM_pure, bind_assoc,
    pure_bind, settle_bind, settle_ok]
  cases style <;> rfl

theorem runDecode_eq (options : DecodeOptions) :
    (runDecode style quiet options : Run m Unit) =
      liftM (decodeResult options : m (Logged CommandError Report)) >>= conclude style quiet := by
  simp only [runDecode, loadModel_eq, decodeResult, conclude, liftM_bind, liftM_pure, bind_assoc,
    pure_bind, settle_bind, settle_mapError, settle_ok]
  cases style <;> rfl

theorem generateFrom_eq (grammar : Grammar) (plan : GenerationPlan) :
    (generateFrom style quiet grammar plan : Run m Unit) =
      liftM (decoderResult plan grammar : m (Logged CommandError Report)) >>=
        conclude style quiet := by
  unfold generateFrom decoderResult conclude
  cases plan.out with
  | none =>
      simp only [liftM_pure, pure_bind, bind_assoc, settle_bind, settle_mapError, settle_ok,
        Report.print_decoder]
  | some out =>
      simp only [liftM_bind, liftM_pure, pure_bind, bind_assoc, settle_bind, settle_mapError,
        settle_ok]
      cases style <;> rfl

theorem carryOut_eq (plan : GenerationPlan) :
    (carryOut style quiet plan : Run m Unit) =
      liftM (planResult plan : m (Logged CommandError Report)) >>= conclude style quiet := by
  unfold carryOut planResult
  cases plan.grammar with
  | none =>
      simp only [conclude, liftM_pure, pure_bind, settle_fail, stop_bind]
  | some path =>
      simp only [loadGrammar, liftM_bind, bind_assoc, conclude_andThen, settle_mapError,
        generateFrom_eq]

theorem runGenerate_eq (options : GenerateOptions) :
    (runGenerate style quiet options : Run m Unit) =
      liftM (generateResult options : m (Logged CommandError Report)) >>= conclude style quiet := by
  simp only [runGenerate, generateResult, liftM_bind, bind_assoc, conclude_andThen,
    settle_mapError, carryOut_eq]

/-- **To run a command is to get its result and to show it.** -/
theorem run_eq (command : Command) :
    (command.run style quiet : Run m Unit) =
      liftM (command.result : m (Logged CommandError Report)) >>= conclude style quiet := by
  cases command with
  | generate options => exact runGenerate_eq style quiet options
  | check path target => exact runCheck_eq style quiet path target
  | decode options => exact runDecode_eq style quiet options

end Command

/-- The outcome of an invocation whose command comes to that result. -/
def Outcome.ofResult (invocation : Invocation) (result : Logged CommandError Report) : Outcome :=
  let events := result.events.filter (·.isShown invocation.verbose)
  match result.outcome with
  | .error error =>
    if error.isMissingSlot then ⟨events, "", "", Halt.aborted.code⟩
    else ⟨events, "", if invocation.quiet then "" else error.line invocation.style, 1⟩
  | .ok report =>
    if report.isSuppressed invocation.quiet then ⟨events, "", "", 0⟩
    else
      match report.form? invocation.style with
      | some text => ⟨events, text, "", 0⟩
      | none => ⟨events, "", "", Halt.aborted.code⟩

section Outcomes

variable {m : Type → Type} [Monad m] [LawfulMonad m]

theorem Command.run_stop (style : Style) (quiet : Bool) (error : CommandError)
    (console : Console) :
    (stop style quiet error : Run m Unit).run.run console =
      if error.isMissingSlot then pure (.error .aborted, console)
      else pure (.error (.exit 1),
        if quiet then console else { console with errors := console.errors ++ error.line style }) := by
  unfold stop reportError
  split
  · rfl
  · cases quiet with
    | true =>
        simp only [if_true, pure_bind]
        rfl
    | false => exact Run.run_modify_bind _ _ _

theorem Report.run_print (style : Style) (quiet : Bool) (report : Report) (console : Console) :
    (report.print style quiet : Run m Unit).run.run console =
      if report.isSuppressed quiet then pure (.ok (), console)
      else
        match report.form? style with
        | some text => pure (.ok (), { console with output := console.output ++ text })
        | none => pure (.error .aborted, console) := by
  unfold Report.print
  split
  · rfl
  · cases report.form? style with
    | none =>
        simp only [Run.found, Run.abort_bind]
        rfl
    | some text =>
        simp only [Run.found, pure_bind]
        exact Run.run_modify _ _

theorem Command.run_conclude (invocation : Invocation) (result : Logged CommandError Report) :
    Outcome.ofRun <$> (conclude invocation.style invocation.quiet result : Run m Unit).run.run
      (.blank invocation.verbose) = pure (.ofResult invocation result) := by
  rcases result with ⟨events, outcome⟩
  unfold conclude settle Outcome.ofResult
  rw [bind_assoc, Run.log, Run.run_modify_bind]
  cases outcome with
  | error error =>
      simp only [stop_bind, id, run_stop]
      split
      · rw [map_pure]
        rfl
      · rw [map_pure]
        cases invocation.quiet <;> simp [Outcome.ofRun, Console.blank, Halt.code]
  | ok report =>
      simp only [pure_bind, Report.run_print]
      split
      · rw [map_pure]
        rfl
      · split
        · rw [map_pure]
          simp [Outcome.ofRun, Console.blank]
        · rw [map_pure]
          rfl

/-- An invocation shows the result of its command. -/
theorem runProgram_of_invoke [Files m] {arguments : List String} {invocation : Invocation}
    (asked : Request.ofArguments? arguments = some (.invoke invocation)) :
    (runProgram arguments : m Outcome) =
      Outcome.ofResult invocation <$> invocation.command.result := by
  simp only [runProgram, asked, Command.run_eq, Run.perform, Run.run_liftM_bind, bind_assoc,
    map_eq_pure_bind]
  simp only [← map_eq_pure_bind, Command.run_conclude]

end Outcomes

/-! ## No slot is missing -/

/-- The computation gives such a value or fails, and if it fails, no slot is missing. -/
def Logged.Settles {α : Type} (holds : α → Prop) (logged : Logged CommandError α) : Prop :=
  match logged.outcome with
  | .ok value => holds value
  | .error error => error.isMissingSlot = false

/-- Whatever the files are, the operation gives such a value. -/
def Gives {α : Type} (operation : StateM FileSystem α) (holds : α → Prop) : Prop :=
  ∀ fs, holds (operation.run fs).1

section

variable {α β ε : Type}

theorem Logged.Settles.imp {holds target : α → Prop} {logged : Logged CommandError α}
    (settled : logged.Settles holds) (follows : ∀ value, holds value → target value) :
    logged.Settles target := by
  rcases logged with ⟨events, outcome⟩
  cases outcome with
  | error error => exact settled
  | ok value => exact follows value settled

theorem Logged.Settles.bind {holds : α → Prop} {target : β → Prop} {first : Logged CommandError α}
    {next : α → Logged CommandError β} (settled : first.Settles holds)
    (follows : ∀ value, holds value → (next value).Settles target) :
    (first.bind next).Settles target := by
  rcases first with ⟨events, outcome⟩
  cases outcome with
  | error error => exact settled
  | ok value => exact follows value settled

/-- A step whose errors do not mean that a slot is missing. -/
theorem Logged.settles_mapError {logged : Logged ε α} {wrap : ε → CommandError}
    (failing : ∀ error, logged.outcome = .error error → (wrap error).isMissingSlot = false) :
    (logged.mapError wrap).Settles (logged.outcome = .ok ·) := by
  rcases logged with ⟨events, outcome⟩
  cases outcome with
  | error error => exact failing error rfl
  | ok value => rfl

theorem Gives.pure {holds : α → Prop} {value : α} (held : holds value) :
    Gives (pure value) holds := fun _ => held

theorem Gives.bind {first : α → Prop} {holds : β → Prop} {operation : StateM FileSystem α}
    {next : α → StateM FileSystem β} (given : Gives operation first)
    (follows : ∀ value, first value → Gives (next value) holds) :
    Gives (operation >>= next) holds := by
  intro fs
  rw [StateT.run_bind]
  exact follows _ (given fs) _

theorem Gives.behind {holds : β → Prop} (operation : StateM FileSystem α)
    {next : α → StateM FileSystem β} (follows : ∀ value, Gives (next value) holds) :
    Gives (operation >>= next) holds :=
  bind (show Gives operation fun _ => True from fun _ => trivial) fun value _ => follows value

theorem Gives.andThen {first : α → Prop} {holds : β → Prop} {logged : Logged CommandError α}
    {next : α → StateM FileSystem (Logged CommandError β)} (settled : logged.Settles first)
    (follows : ∀ value, first value → Gives (next value) (Logged.Settles holds)) :
    Gives (logged.andThen next) (Logged.Settles holds) := by
  rcases logged with ⟨events, outcome⟩
  cases outcome with
  | error error => exact Gives.pure settled
  | ok value => exact (follows value settled).bind fun _ held => Gives.pure held

end

theorem Grammar.decoderText_ne_danglingSlot (grammar : Grammar) (target : Target)
    (package : Option String) :
    (grammar.decoderText target package).outcome ≠ .error .danglingSlot := by
  unfold decoderText
  simp only [Logged.outcome_bind, Logged.mapError, Logged.ofExcept]
  cases compiled : (grammar.compile target.reserved).outcome with
  | error error => simp
  | ok model =>
      obtain ⟨text, rendered⟩ := model.exists_render (grounded_of_compile compiled) target package
      cases checked : model.checkNames target with
      | error error => simp [checked, Except.mapError]
      | ok _ => simp [checked, Except.mapError, rendered]

theorem Grammar.generate_ne_danglingSlot (grammar : Grammar) (target : Target)
    (package : Option String) (out : Path) :
    Gives (grammar.generate target package out) (·.outcome ≠ .error .danglingSlot) := by
  intro fs failed
  rw [run_generate] at failed
  split at failed
  · cases failed
  · split at failed
    · cases failed
    · dsimp only at failed
      split at failed
      · rename_i error failure
        cases failed
        exact grammar.decoderText_ne_danglingSlot target package failure
      · split at failed
        · rename_i error after writing
          obtain ⟨⟨path, cause, rfl⟩, -⟩ := writeText_eq_error writing
          cases failed
        · cases failed

/-- A report that can be shown in every style. -/
def Report.IsShowable (report : Report) : Prop :=
  ∀ style, ∃ text, report.form? style = some text

theorem Report.isShowable_compiled {model : Model} (grounded : model.Grounded) :
    (Report.compiled model).IsShowable := by
  intro style
  cases style with
  | text => exact model.exists_summary grounded
  | json =>
      obtain ⟨json, made⟩ := model.exists_toJson grounded
      exact ⟨_, by rw [form?, made]; rfl⟩

namespace Command

theorem modelOf_settles (path : Path) (target : Target) :
    Gives (modelOf path target) (Logged.Settles Model.Grounded) := by
  refine Gives.behind _ fun read => Gives.pure ?_
  refine (Logged.settles_mapError fun _ _ => rfl).bind fun grammar _ => ?_
  exact (Logged.settles_mapError fun _ _ => rfl).imp fun _ compiled =>
    Grammar.grounded_of_compile compiled

theorem checkResult_settles (path : Path) (target : Target) :
    Gives (checkResult path target) (Logged.Settles Report.IsShowable) := by
  refine (modelOf_settles path target).bind fun loaded settled => Gives.pure ?_
  exact settled.bind fun model grounded => Report.isShowable_compiled grounded

theorem decodeResult_settles (options : DecodeOptions) :
    Gives (decodeResult options) (Logged.Settles Report.IsShowable) := by
  refine (modelOf_settles options.grammar options.target).bind fun loaded settled => Gives.pure ?_
  refine settled.bind fun model grounded => ?_
  have decoding := model.decode_ne_dangling grounded options.intent options.understood
    (.ofPairs options.filling)
  refine (Logged.settles_mapError ?_).bind ?_
  · intro error failed
    cases error with
    | danglingSlot position => exact absurd failed (decoding position)
    | _ => rfl
  · intro decoded _ style
    cases style <;> exact ⟨_, rfl⟩

theorem decoderResult_settles (plan : GenerationPlan) (grammar : Grammar) :
    Gives (decoderResult plan grammar) (Logged.Settles Report.IsShowable) := by
  have failing : ∀ error : GenerationError, error ≠ .danglingSlot →
      (CommandError.generation error).isMissingSlot = false := by
    intro error other
    cases error with
    | danglingSlot => exact absurd rfl other
    | _ => rfl
  unfold decoderResult
  cases plan.out with
  | none =>
      refine Gives.pure ((Logged.settles_mapError ?_).bind ?_)
      · intro error failed
        apply failing
        rintro rfl
        exact grammar.decoderText_ne_danglingSlot plan.target plan.package failed
      · intro text _ style
        exact ⟨text, rfl⟩
  | some out =>
      refine (grammar.generate_ne_danglingSlot plan.target plan.package out).bind ?_
      intro made there
      refine Gives.pure ((Logged.settles_mapError ?_).bind ?_)
      · intro error failed
        apply failing
        rintro rfl
        exact there failed
      · intro _ _ style
        cases style <;> exact ⟨_, rfl⟩

theorem planResult_settles (plan : GenerationPlan) :
    Gives (planResult plan) (Logged.Settles Report.IsShowable) := by
  unfold planResult
  cases plan.grammar with
  | none => exact Gives.pure rfl
  | some path =>
      refine Gives.behind _ fun read => ?_
      exact Gives.andThen (Logged.settles_mapError fun _ _ => rfl) fun grammar _ =>
        decoderResult_settles plan grammar

theorem generateResult_settles (options : GenerateOptions) :
    Gives (generateResult options) (Logged.Settles Report.IsShowable) := by
  refine Gives.behind _ fun loaded => ?_
  exact Gives.andThen (Logged.settles_mapError fun _ _ => rfl) fun settings _ =>
    planResult_settles (.merge options settings)

/-- **The result of a command can be shown,** whatever the files are. -/
theorem result_showable (command : Command) :
    Gives command.result (Logged.Settles Report.IsShowable) := by
  cases command with
  | generate options => exact generateResult_settles options
  | check path target => exact checkResult_settles path target
  | decode options => exact decodeResult_settles options

end Command

end VoiceGrammar
