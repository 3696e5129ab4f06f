/-
Carrying out commands.

Commands are told in which style to report and whether to be quiet. A command goes through
its steps in order and stops at the first that fails: with one line on the error output,
which quiet suppresses, and the exit code 1. Behind its last step it prints what it has
found, unless it is to be quiet; only a decoder that goes to the standard output is printed
in any case. A slot that is not where a variable says is no such failure. No compiled model
has one, and it aborts the run.
-/
import VoiceGrammar.Command.Console
import VoiceGrammar.Command.Invocation
import VoiceGrammar.Command.Report
import VoiceGrammar.Document
import VoiceGrammar.Generation
import VoiceGrammar.Settings

namespace VoiceGrammar

set_option autoImplicit false

/-- Why a step of a command failed. -/
inductive CommandError where
  | settings (cause : Settings.Error)
  | noGrammar
  | grammar (cause : Grammar.ReadError)
  | compile (cause : CompileError)
  | decode (cause : DecodeError)
  | generation (cause : GenerationError)
  deriving DecidableEq, Repr

namespace CommandError

def message : CommandError → String
  | settings cause => "config error: " ++ cause.message
  | noGrammar => "no grammar file given: pass one or set [generate] grammar in phrasebook.toml"
  | grammar cause => "error reading grammar: " ++ cause.message
  | compile cause => "compile error: " ++ cause.message
  | decode cause => "decode error: " ++ cause.message
  | generation cause => "generation error: " ++ cause.message

/-- The line that reports an error. -/
def line (error : CommandError) : Style → String
  | .text => error.message ++ "\n"
  | .json => (Json.Value.object [("error", .string error.message)]).compact ++ "\n"

/-- A slot was not where a variable said. -/
def isMissingSlot : CommandError → Bool
  | decode (.danglingSlot _) => true
  | generation .danglingSlot => true
  | _ => false

end CommandError

/-- What to generate, from the options of the command and the settings of the project. -/
structure GenerationPlan where
  grammar : Option Path
  target : Target
  out : Option Path
  package : Option String
  deriving DecidableEq, Repr

/-- Options win over settings. The package of a Kotlin file is inferred from its place if
neither gives one. -/
def GenerationPlan.merge (options : GenerateOptions) (settings : Settings) : GenerationPlan :=
  let target := (options.target.or settings.target).getD Command.defaultTarget
  let out := options.out.or settings.out
  let roots := if options.sourceRoots.isEmpty then settings.sourceRoots else options.sourceRoots
  let inferred :=
    match out, target with
    | some out, .kotlin => inferPackage out roots
    | _, _ => none
  { grammar := options.grammar.or settings.grammar
    target := target
    out := out
    package := (options.package.or settings.package).or inferred }

/-- The file that holds the settings of a project, unless another one is named. -/
def Settings.defaultPath : Path := ⟨"phrasebook.toml"⟩

namespace Command

variable {m : Type → Type} [Monad m]

section Steps

variable (style : Style) (quiet : Bool)

def reportError (error : CommandError) : Run m Unit := do
  if quiet then return
  Run.printError (error.line style)

/-- Stop because of an error. -/
def stop {α : Type} (error : CommandError) : Run m α := do
  if error.isMissingSlot then Run.abort
  else
    reportError style quiet error
    Run.exit 1

/-- The value that a step gives; its error stops the run. -/
def settle {ε α : Type} (wrap : ε → CommandError) (step : Logged ε α) : Run m α := do
  Run.log step.events
  match step.outcome with
  | .ok value => return value
  | .error cause => stop style quiet (wrap cause)

/-- Print what was found, in the form that is asked for. -/
def present (form? : Style → Option String) : Run m Unit := do
  if quiet then return
  Run.print (← Run.found (form? style))

end Steps

variable [Files m] (style : Style) (quiet : Bool)

def loadGrammar (path : Path) : Run m Grammar := do
  let read : Logged Grammar.ReadError Grammar ← (Grammar.read path : m _)
  settle style quiet .grammar read

/-- The model of a grammar file. -/
def loadModel (path : Path) (target : Target) : Run m Model := do
  let grammar ← loadGrammar style quiet path
  settle style quiet .compile (grammar.compile target.reserved)

def runCheck (path : Path) (target : Target) : Run m Unit := do
  let model ← loadModel style quiet path target
  present style quiet fun
    | .text => model.summary?
    | .json => model.toJson?.map (·.pretty ++ "\n")

def runDecode (options : DecodeOptions) : Run m Unit := do
  let model ← loadModel style quiet options.grammar options.target
  let result := model.decode options.intent options.understood (.ofPairs options.filling)
  let decoded ← settle style quiet .decode (.ofExcept result)
  present style quiet fun
    | .text => some decoded.summary
    | .json => some (decoded.toJson.pretty ++ "\n")

/-- The settings of the named file, or of the default one if it is there. -/
def loadSettings (named : Option Path) : m (Logged Settings.Error Settings) := do
  let path := named.getD Settings.defaultPath
  if named.isSome || (← Files.isFile path) then
    return ⟨[.readingSettings path.text], ← Settings.read path⟩
  else return .ok .unset

/-- Generate from a grammar, into a file if the plan names one. -/
def generateFrom (grammar : Grammar) (plan : GenerationPlan) : Run m Unit := do
  match plan.out with
  | none =>
    let text ← settle style quiet .generation (grammar.decoderText plan.target plan.package)
    Run.print text
  | some out =>
    let made : Logged GenerationError Unit ← (grammar.generate plan.target plan.package out : m _)
    settle style quiet .generation made
    let file : WrittenDecoder := ⟨out, plan.target, plan.package⟩
    present style quiet fun
      | .text => some file.summary
      | .json => some (file.toJson.compact ++ "\n")

def carryOut (plan : GenerationPlan) : Run m Unit := do
  match plan.grammar with
  | none => stop style quiet .noGrammar
  | some path => generateFrom style quiet (← loadGrammar style quiet path) plan

def runGenerate (options : GenerateOptions) : Run m Unit := do
  let loaded : Logged Settings.Error Settings ← (loadSettings options.settings : m _)
  let settings ← settle style quiet .settings loaded
  carryOut style quiet (.merge options settings)

def run : Command → Run m Unit
  | .generate options => runGenerate style quiet options
  | .check path target => runCheck style quiet path target
  | .decode options => runDecode style quiet options

end Command

/-- What the program leaves behind: the events to be shown, its two outputs, and its exit
code. -/
structure Outcome where
  events : List Event
  output : String
  errors : String
  code : Nat

/-- The outcome of a run that ended like that. -/
def Outcome.ofRun : Except Halt Unit × Console → Outcome
  | (ended, console) =>
    let code :=
      match ended with
      | .ok () => 0
      | .error halt => halt.code
    ⟨console.events, console.output, console.errors, code⟩

def Outcome.version : Outcome := ⟨[], "phrasebook 0.1.0\n", "", 0⟩

/-- The arguments were rejected. -/
def Outcome.rejected : Outcome where
  events := []
  output := ""
  errors := "Usage: phrasebook [--output text|json] [--quiet] [--verbose] generate|check|decode ...\n"
  code := 2

/-- Run the program with these arguments. -/
def runProgram {m : Type → Type} [Monad m] [Files m] (arguments : List String) : m Outcome := do
  match Request.ofArguments? arguments with
  | none => return .rejected
  | some .version => return .version
  | some (.invoke invocation) =>
    let run : Run m Unit := invocation.command.run invocation.style invocation.quiet
    return .ofRun (← run.perform invocation.verbose)

end VoiceGrammar
