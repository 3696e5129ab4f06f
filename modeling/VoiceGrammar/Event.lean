/-
What the library reports while it works, and computations that report.

An event is data: its level, its wording and its fields are functions of it. A
`Logged` computation carries the events in the order in which they arose and then
its outcome; what follows a failure reports nothing.
-/
namespace VoiceGrammar

set_option autoImplicit false

inductive Event where
  /-- A closing bracket met outside every group. -/
  | unmatchedCloser (phrase : String) (closer : Char)
  /-- The phrase ended with `depth` groups open. -/
  | unclosedGroup (phrase : String) (depth : Nat)
  /-- A later occurrence of a variable names another slot type than the first. -/
  | conflictingType (intent variableName phrase : String)
  | builtIntent (intent : String) (phrases vars required : Nat)
  | compiledGrammar (intents slots : Nat)
  | readingSettings (path : String)
  | readingGrammar (path : String) (format : String)
  | wroteDecoder (path : String) (target : String)
  deriving DecidableEq, Repr

namespace Event

inductive Level where
  | warning
  | info
  | debug
  deriving DecidableEq, Repr

def Level.name : Level → String
  | warning => "WARN"
  | info => "INFO"
  | debug => "DEBUG"

def level : Event → Level
  | unmatchedCloser .. | unclosedGroup .. | conflictingType .. => .warning
  | wroteDecoder .. => .info
  | builtIntent .. | compiledGrammar .. | readingSettings .. | readingGrammar .. => .debug

def message : Event → String
  | unmatchedCloser _ closer => "unmatched '" ++ closer.toString ++ "' ignored"
  | unclosedGroup .. => "phrase ends inside an optional or choice group"
  | conflictingType .. => "variable reused with a different slot type; keeping the first"
  | builtIntent .. => "built intent"
  | compiledGrammar .. => "compiled grammar"
  | readingSettings .. => "reading config"
  | readingGrammar .. => "reading grammar"
  | wroteDecoder .. => "wrote decoder"

/-- A field of an event is a text or a count. -/
inductive Field where
  | text (value : String)
  | count (value : Nat)
  deriving DecidableEq, Repr

def fields : Event → List (String × Field)
  | unmatchedCloser phrase _ => [("phrase", .text phrase)]
  | unclosedGroup phrase depth => [("phrase", .text phrase), ("depth", .count depth)]
  | conflictingType intent variableName phrase =>
    [("intent", .text intent), ("variable", .text variableName), ("phrase", .text phrase)]
  | builtIntent intent phrases vars required =>
    [("intent", .text intent), ("phrases", .count phrases), ("variables", .count vars),
      ("required", .count required)]
  | compiledGrammar intents slots => [("intents", .count intents), ("slots", .count slots)]
  | readingSettings path => [("path", .text path)]
  | readingGrammar path format => [("path", .text path), ("format", .text format)]
  | wroteDecoder path target => [("path", .text path), ("target", .text target)]

end Event

/-- The events of a computation, then its outcome. -/
structure Logged (ε α : Type) where
  events : List Event
  outcome : Except ε α

namespace Logged

variable {ε ε' α β : Type}

def ok (value : α) : Logged ε α := ⟨[], .ok value⟩

def fail (error : ε) : Logged ε α := ⟨[], .error error⟩

def ofExcept (outcome : Except ε α) : Logged ε α := ⟨[], outcome⟩

def report (event : Event) : Logged ε Unit := ⟨[event], .ok ()⟩

def bind (first : Logged ε α) (next : α → Logged ε β) : Logged ε β :=
  match first.outcome with
  | .ok value =>
    let second := next value
    ⟨first.events ++ second.events, second.outcome⟩
  | .error error => ⟨first.events, .error error⟩

instance : Monad (Logged ε) where
  pure := ok
  bind := bind

/-- The same events, with the error seen through `f`. -/
def mapError (f : ε → ε') (logged : Logged ε α) : Logged ε' α :=
  ⟨logged.events, match logged.outcome with
    | .ok value => .ok value
    | .error error => .error (f error)⟩

end Logged

end VoiceGrammar
