/-
What the program is asked to do.

The arguments are general options, the name of a command, and behind it options and
operands of that command, among which general options may stand too. A general option
given on both sides of the name counts as given behind it. Asking for the version ends
the reading of arguments at once. Arguments that make no sense are rejected as a whole.

Help is left out. Arguments that ask for it (`--help`, `-h`, or `help` in the place of a
command) are rejected like unknown ones; they are not answered with a text and success.
-/
import VoiceGrammar.Command.Argument
import VoiceGrammar.Path
import VoiceGrammar.Target

namespace VoiceGrammar

set_option autoImplicit false

/-- An argument that should give a variable its text and does not. -/
structure BadFilling where
  argument : String
  deriving DecidableEq, Repr

def BadFilling.message (error : BadFilling) : String :=
  "expected key=value, got '" ++ error.argument ++ "'"

/-- The name and the text in an argument `name=text`; the name is not empty, and the text
may hold further equals signs. -/
def parseFilling (argument : String) : Except BadFilling (String × String) :=
  match Argument.splitAtEquals argument.toList with
  | (name, some text) => if name.isEmpty then .error ⟨argument⟩ else .ok (name, text)
  | (_, none) => .error ⟨argument⟩

/-- How results and errors are written. -/
inductive Style where
  | text
  | json
  deriving DecidableEq, Repr

def Style.ofName? : String → Option Style
  | "text" => some text
  | "json" => some json
  | _ => none

/-- Options that every command takes. -/
structure GeneralOptions where
  style : Option Style
  quiet : Bool
  verbose : Bool
  deriving DecidableEq, Repr

namespace GeneralOptions

def none : GeneralOptions := ⟨.none, false, false⟩

/-- Both, where the style of `later` counts if it has one. -/
def followedBy (earlier later : GeneralOptions) : GeneralOptions where
  style := later.style.or earlier.style
  quiet := earlier.quiet || later.quiet
  verbose := earlier.verbose || later.verbose

def known : List (String × OptionKind) :=
  [("output", .single), ("quiet", .flag), ("verbose", .flag)]

/-- The first style; a second one is refused. -/
def setStyle? (options : GeneralOptions) (name : String) : Option GeneralOptions :=
  if options.style.isSome then Option.none
  else (Style.ofName? name).map fun style => { options with style := some style }

def setQuiet? (options : GeneralOptions) : Option GeneralOptions :=
  if options.quiet then Option.none else some { options with quiet := true }

def setVerbose? (options : GeneralOptions) : Option GeneralOptions :=
  if options.verbose then Option.none else some { options with verbose := true }

/-- The general options among the occurrences of a command. -/
def ofOccurrences? (occurrences : Occurrences) : Option GeneralOptions := do
  let style ← (occurrences.value? "output").mapM Style.ofName?
  return ⟨style, occurrences.flag "quiet", occurrences.flag "verbose"⟩

end GeneralOptions

structure GenerateOptions where
  grammar : Option Path
  target : Option Target
  out : Option Path
  package : Option String
  sourceRoots : List Path
  settings : Option Path
  deriving DecidableEq, Repr

structure DecodeOptions where
  grammar : Path
  intent : String
  understood : Bool
  filling : List (String × String)
  target : Target
  deriving DecidableEq, Repr

inductive Command where
  | generate (options : GenerateOptions)
  | check (grammar : Path) (target : Target)
  | decode (options : DecodeOptions)
  deriving DecidableEq, Repr

namespace Command

/-- A path is not empty. -/
def path? (text : String) : Option Path :=
  if text.isEmpty then none else some ⟨text⟩

/-- The grammar is the only operand, and may be left out here. -/
def grammar? : List String → Option (Option Path)
  | [] => some none
  | [text] => (path? text).map some
  | _ => none

/-- The grammar is the only operand. -/
def requiredGrammar? (operands : List String) : Option Path :=
  (grammar? operands).join

def defaultTarget : Target := .rust

def target? (occurrences : Occurrences) : Option (Option Target) :=
  (occurrences.value? "target").mapM Target.ofName?

/-- The options of a command besides the general ones. -/
def options? : String → Option (List (String × OptionKind))
  | "generate" => some [("target", .single), ("out", .single), ("package", .single),
      ("source-root", .repeated), ("config", .single)]
  | "check" => some [("target", .single)]
  | "decode" => some [("intent", .single), ("not-understood", .flag), ("slot", .repeated),
      ("target", .single)]
  | _ => none

def generate? (occurrences : Occurrences) : Option Command := do
  return .generate {
    grammar := ← grammar? occurrences.operands
    target := ← target? occurrences
    out := ← (occurrences.value? "out").mapM path?
    package := occurrences.value? "package"
    sourceRoots := ← (occurrences.values "source-root").mapM path?
    settings := ← (occurrences.value? "config").mapM path? }

def check? (occurrences : Occurrences) : Option Command := do
  return .check (← requiredGrammar? occurrences.operands)
    ((← target? occurrences).getD defaultTarget)

def decode? (occurrences : Occurrences) : Option Command := do
  return .decode {
    grammar := ← requiredGrammar? occurrences.operands
    intent := ← occurrences.value? "intent"
    understood := !occurrences.flag "not-understood"
    filling := ← (occurrences.values "slot").mapM fun argument => (parseFilling argument).toOption
    target := (← target? occurrences).getD defaultTarget }

/-- The command of that name that the occurrences describe. -/
def ofOccurrences? (name : String) (occurrences : Occurrences) : Option Command :=
  match name with
  | "generate" => generate? occurrences
  | "check" => check? occurrences
  | "decode" => decode? occurrences
  | _ => none

end Command

/-- A command and the way to report on it. -/
structure Invocation where
  style : Style
  quiet : Bool
  verbose : Bool
  command : Command
  deriving DecidableEq, Repr

/-- What the program is asked for. -/
inductive Request where
  | version
  | invoke (invocation : Invocation)
  deriving DecidableEq, Repr

namespace Request

/-- The command of that name with its arguments, after general options. -/
def ofCommand? (earlier : GeneralOptions) (name : String) (arguments : List String) :
    Option Request := do
  let known := (← Command.options? name) ++ GeneralOptions.known
  let occurrences ← Occurrences.ofArguments? known arguments
  let general := earlier.followedBy (← GeneralOptions.ofOccurrences? occurrences)
  let command ← Command.ofOccurrences? name occurrences
  return .invoke ⟨general.style.getD .text, general.quiet, general.verbose, command⟩

/-- Read arguments after some general options. Of what can be asked for without a command there is
only the version here; there is no help. -/
def continue? (general : GeneralOptions) : List String → Option Request
  | [] => none
  | argument :: rest =>
    match Argument.ofText argument with
    | .separator => none
    | .operand name => ofCommand? general name rest
    | .letters text => if text.toList.head? == some 'V' then some .version else none
    | .option "version" none => some .version
    | .option "quiet" none => do continue? (← general.setQuiet?) rest
    | .option "verbose" none => do continue? (← general.setVerbose?) rest
    | .option "output" (some name) => do continue? (← general.setStyle? name) rest
    | .option "output" none =>
      match rest with
      | [] => none
      | next :: later => do continue? (← general.setStyle? (← Argument.value? next)) later
    | .option .. => none

/-- What a list of arguments asks for; senseless arguments ask for nothing. -/
def ofArguments? (arguments : List String) : Option Request :=
  continue? .none arguments

end Request

end VoiceGrammar
