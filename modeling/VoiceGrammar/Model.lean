/-
The compiled form of a grammar.

A slot is a named enumeration of texts. An intent carries variables, each with the
type of its values: one character, an integer, or an element of a slot, which is
named by its position among the slots. A model taken from elsewhere may name a slot
that is not there; `Model.slot?` then finds none.
-/
namespace VoiceGrammar

set_option autoImplicit false

structure Slot where
  name : String
  elements : List String
  deriving DecidableEq, Repr

/-- The position of the first element spelled exactly like `raw`. -/
def Slot.position? (slot : Slot) (raw : String) : Option Nat :=
  slot.elements.idxOf? raw

inductive ValueType where
  | char
  | integer
  /-- An element of the slot at this position. -/
  | element (slot : Nat)
  deriving DecidableEq, Repr

structure Variable where
  name : String
  type : ValueType
  required : Bool
  deriving DecidableEq, Repr

structure Intent where
  name : String
  vars : List Variable
  deriving DecidableEq, Repr

def Intent.variableNamed? (intent : Intent) (name : String) : Option Variable :=
  intent.vars.find? (·.name == name)

structure Model where
  intents : List Intent
  slots : List Slot
  deriving DecidableEq, Repr

namespace Model

/-- The first intent of that name. -/
def intent? (model : Model) (name : String) : Option Intent :=
  model.intents.find? (·.name == name)

def slot? (model : Model) (position : Nat) : Option Slot :=
  model.slots[position]?

end Model

namespace ValueType

/-- Tags with a meaning of their own, and the type of their values. -/
def builtins : List (String × ValueType) := [
  ("pv.Alphabetic", .char),
  ("pv.Alphanumeric", .char),
  ("pv.Percent", .integer),
  ("pv.SingleDigitInteger", .integer),
  ("pv.SingleDigitOrdinal", .integer),
  ("pv.TwoDigitInteger", .integer),
  ("pv.TwoDigitOrdinal", .integer)]

def builtin? (tag : String) : Option ValueType :=
  builtins.lookup tag

/-- The type that a tag names: a built-in one, else the first slot of that name. -/
def resolve? (slots : List Slot) (tag : String) : Option ValueType :=
  match builtin? tag with
  | some type => some type
  | none => (slots.findIdx? (·.name == tag)).map element

end ValueType

end VoiceGrammar
