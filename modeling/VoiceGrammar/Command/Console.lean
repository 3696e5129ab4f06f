/-
What a running command shows, and how it can stop.

A run prints on two outputs and leaves events behind, of which those are kept that are to be
shown. It stops before its end in one of two ways: with an exit code that it chooses, or
because it was aborted when it met a state that it takes to be impossible.
-/
import VoiceGrammar.Event
import VoiceGrammar.Text.Numeral

namespace VoiceGrammar

set_option autoImplicit false

def Event.Field.shown : Event.Field → String
  | .text value => value
  | .count value => Text.decimal value

/-- An event in one line: its level, its message and its fields. -/
def Event.line (event : Event) : String :=
  " ".intercalate (event.level.name :: event.message ::
    event.fields.map fun (key, value) => key ++ "=" ++ value.shown)

/-- Warnings are always shown, other events on demand. A filter from the environment is left out. -/
def Event.isShown (verbose : Bool) (event : Event) : Bool :=
  verbose || event.level == .warning

/-- What a run has shown so far, and whether it shows all events. -/
structure Console where
  verbose : Bool
  events : List Event
  output : String
  errors : String

def Console.blank (verbose : Bool) : Console := ⟨verbose, [], "", ""⟩

/-- Why a run stopped before its end. -/
inductive Halt where
  | exit (code : Nat)
  /-- By a state that is taken to be impossible. What is said of it on the error output is left out. -/
  | aborted
  deriving DecidableEq, Repr

def Halt.code : Halt → Nat
  | exit code => code
  | aborted => 101

/-- Runs over operations in `m`. -/
abbrev Run (m : Type → Type) := ExceptT Halt (StateT Console m)

namespace Run

/-- Run from the start: how it ends, and what has been shown then. -/
def perform {m : Type → Type} {α : Type} (verbose : Bool) (run : Run m α) :
    m (Except Halt α × Console) :=
  run.run.run (.blank verbose)

variable {m : Type → Type} [Monad m]

def print (text : String) : Run m Unit :=
  modify fun console => { console with output := console.output ++ text }

def printError (text : String) : Run m Unit :=
  modify fun console => { console with errors := console.errors ++ text }

/-- Of these events, show those that are to be shown. -/
def log (events : List Event) : Run m Unit :=
  modify fun console =>
    { console with events := console.events ++ events.filter (·.isShown console.verbose) }

def exit {α : Type} (code : Nat) : Run m α :=
  throw (.exit code)

def abort {α : Type} : Run m α :=
  throw .aborted

/-- A value that is taken to be there. -/
def found {α : Type} : Option α → Run m α
  | some value => return value
  | none => abort

end Run

end VoiceGrammar
