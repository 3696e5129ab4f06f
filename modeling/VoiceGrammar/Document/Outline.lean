/-
What a grammar document says, before it is checked, and the check.

A document has a root node `context` with two maps, `expressions` from intents to their
phrases and `slots` from slots to their elements. Any of these may be absent or null,
also single lists. The check wants a context, at least one intent, a phrase in every
intent and an element in every slot, and blames the first fault in that order.
-/
import VoiceGrammar.Grammar

namespace VoiceGrammar

set_option autoImplicit false

/-- Names with their lists, in order of first mention; a list may be absent. -/
abbrev NamedLists := List (String × Option (List String))

/-- Set the list of a name. A name that is there keeps its position. -/
def NamedLists.set (lists : NamedLists) (name : String) (items : Option (List String)) :
    NamedLists :=
  if lists.any (·.1 == name) then
    lists.map fun entry => if entry.1 == name then (name, items) else entry
  else lists ++ [(name, items)]

structure ContextOutline where
  expressions : Option NamedLists
  slots : Option NamedLists
  deriving DecidableEq, Repr

structure Outline where
  context : Option ContextOutline
  deriving DecidableEq, Repr

/-- The formats of grammar documents. -/
inductive Format where
  | yaml
  | json
  deriving DecidableEq, Repr

def Format.name : Format → String
  | yaml => "Yaml"
  | json => "Json"

inductive DocumentError where
  | emptyDocument
  | missingContext
  | missingExpressions
  | emptyIntent (intent : String)
  | emptySlot (slot : String)
  /-- The text is not a document of that format. -/
  | invalid (format : Format)
  deriving DecidableEq, Repr

/-- The readers say that a document is invalid and not where, so its message ends in
dots. -/
def DocumentError.message : DocumentError → String
  | emptyDocument => "grammar document is empty"
  | missingContext => "grammar document must have a root node 'context:'"
  | missingExpressions => "at least one intent must be defined in 'expressions:'"
  | emptyIntent intent => "intent " ++ intent ++ " must have at least one phrase"
  | emptySlot slot => "slot " ++ slot ++ " must have at least one element"
  | invalid .yaml => "invalid YAML: ..."
  | invalid .json => "invalid JSON: ..."

namespace Outline

/-- The lists, if none of them is absent or empty; else the error for the first name
whose list is. -/
def complete (whenEmpty : String → DocumentError) (lists : NamedLists) :
    Except DocumentError (List (String × List String)) :=
  lists.mapM fun (name, items) =>
    match items with
    | some (first :: later) => .ok (name, first :: later)
    | _ => .error (whenEmpty name)

/-- The grammar that an outline describes. -/
def toGrammar (outline : Outline) : Except DocumentError Grammar :=
  match outline.context with
  | none => .error .missingContext
  | some context =>
    match context.expressions.getD [] with
    | [] => .error .missingExpressions
    | expressions => do
      let expressions ← complete .emptyIntent expressions
      let slots ← complete .emptySlot (context.slots.getD [])
      return ⟨slots, expressions⟩

end Outline

end VoiceGrammar
