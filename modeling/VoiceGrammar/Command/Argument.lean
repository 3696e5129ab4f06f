/-
Arguments of a command: options and operands.

An option is two dashes and a name. Its value is attached with an equals sign or is the
next argument, which then must not begin with a dash unless it is nothing but a dash. Two
dashes alone make operands of all arguments behind them.
-/
namespace VoiceGrammar

set_option autoImplicit false

inductive Argument where
  /-- Two dashes alone. -/
  | separator
  | option (name : String) (attached : Option String)
  /-- One dash and a letter or more. -/
  | letters (text : String)
  | operand (text : String)
  deriving DecidableEq, Repr

namespace Argument

/-- The text before the first equals sign, and the text behind it, if there is one. -/
def splitAtEquals (text : List Char) : String × Option String :=
  (String.ofList (text.takeWhile (· != '=')),
    match text.dropWhile (· != '=') with
    | [] => none
    | _ :: value => some (String.ofList value))

def ofText (text : String) : Argument :=
  match text.toList with
  | ['-', '-'] => separator
  | '-' :: '-' :: rest =>
    let (name, attached) := splitAtEquals rest
    option name attached
  | '-' :: first :: rest => letters (String.ofList (first :: rest))
  | _ => operand text

/-- The text, if it can be the value of an option that stands before it. -/
def value? (text : String) : Option String :=
  match ofText text with
  | operand value => some value
  | _ => none

end Argument

/-- How an option is used: alone, with a value, or any number of times with a value. -/
inductive OptionKind where
  | flag
  | single
  | repeated
  deriving DecidableEq, Repr

/-- The options and operands of a list of arguments, in order. A flag has no value. -/
structure Occurrences where
  options : List (String × Option String)
  operands : List String
  deriving DecidableEq, Repr

namespace Occurrences

def addOption (name : String) (value : Option String) (later : Occurrences) : Occurrences :=
  { later with options := (name, value) :: later.options }

def addOperand (text : String) (later : Occurrences) : Occurrences :=
  { later with operands := text :: later.operands }

/-- The occurrences in a list of arguments, all options being known ones. -/
def collect? (known : List (String × OptionKind)) : List String → Option Occurrences
  | [] => some ⟨[], []⟩
  | argument :: rest =>
    match Argument.ofText argument with
    | .separator => some ⟨[], rest⟩
    | .operand text => (collect? known rest).map (addOperand text)
    | .letters _ => none
    | .option name attached =>
      match known.lookup name, attached with
      | none, _ => none
      | some .flag, none => (collect? known rest).map (addOption name none)
      | some .flag, some _ => none
      | some _, some value => (collect? known rest).map (addOption name (some value))
      | some _, none =>
        match rest with
        | [] => none
        | next :: later =>
          match Argument.value? next with
          | none => none
          | some value => (collect? known later).map (addOption name (some value))

def count (occurrences : Occurrences) (name : String) : Nat :=
  occurrences.options.countP (·.1 == name)

/-- Only options that may be repeated are. -/
def respects (occurrences : Occurrences) (known : List (String × OptionKind)) : Bool :=
  known.all fun (name, kind) => kind == .repeated || occurrences.count name ≤ 1

/-- The occurrences in a list of arguments that uses the known options properly. -/
def ofArguments? (known : List (String × OptionKind)) (arguments : List String) :
    Option Occurrences :=
  (collect? known arguments).filter (·.respects known)

/-- Whether a flag is set. -/
def flag (occurrences : Occurrences) (name : String) : Bool :=
  occurrences.count name > 0

/-- All values of an option. -/
def values (occurrences : Occurrences) (name : String) : List String :=
  (occurrences.options.filter (·.1 == name)).filterMap (·.2)

/-- The value of an option that is used at most once. -/
def value? (occurrences : Occurrences) (name : String) : Option String :=
  (occurrences.values name).head?

end Occurrences

end VoiceGrammar
