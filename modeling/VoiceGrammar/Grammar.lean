/-
Grammars and their compilation.

A grammar declares slots and, under intent names, example phrases; both keep their
order and names may repeat. Compiling escapes slot names and elements, then builds
the intents one after the other up to the first that fails. Intent names stay as
declared, because inference results name intents by them.
-/
import VoiceGrammar.Intent

namespace VoiceGrammar

set_option autoImplicit false

structure Grammar where
  slots : List (String × List String)
  expressions : List (String × List String)
  deriving DecidableEq, Repr

/-- A fault in a phrase of `intent`. -/
structure CompileError where
  intent : String
  cause : PhraseError
  deriving DecidableEq, Repr

def CompileError.message (error : CompileError) : String :=
  "intent " ++ error.intent ++ ": " ++ error.cause.message

namespace Grammar

def empty : Grammar := ⟨[], []⟩

/-- Declare one more slot. -/
def addSlot (grammar : Grammar) (name : String) (elements : List String) : Grammar :=
  { grammar with slots := grammar.slots ++ [(name, elements)] }

/-- Declare one more intent. -/
def addIntent (grammar : Grammar) (name : String) (phrases : List String) : Grammar :=
  { grammar with expressions := grammar.expressions ++ [(name, phrases)] }

def compileSlot (reserved : ReservedWords) (declared : String × List String) : Slot :=
  ⟨reserved.escape declared.1, declared.2.map reserved.escape⟩

def compileIntent (slots : List Slot) (reserved : ReservedWords)
    (declared : String × List String) : Logged CompileError Intent :=
  (Intent.build declared.1 declared.2 slots reserved).mapError (⟨declared.1, ·⟩)

/-- The model of a grammar, or the first fault in it. -/
def compile (grammar : Grammar) (reserved : ReservedWords) : Logged CompileError Model := do
  let slots := grammar.slots.map (compileSlot reserved)
  let intents ← grammar.expressions.mapM (compileIntent slots reserved)
  Logged.report (.compiledGrammar intents.length slots.length)
  return ⟨intents, slots⟩

end Grammar

end VoiceGrammar
