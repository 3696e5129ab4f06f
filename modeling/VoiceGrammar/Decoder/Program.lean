/-
Generated decoders, before they are written down in a language.

A decoder has one enumeration for each slot and one arm for each intent. An arm
applies to the intent whose name is its key and reads the fields of the variant in
order. Names that stand in the program text are labels, already in the spelling of
the target; keys and element texts are the texts to compare with.
-/
import VoiceGrammar.Target

namespace VoiceGrammar.Decoder

set_option autoImplicit false

/-- The elements in order, each only where it first occurs. -/
def distinct (elements : List String) : List String :=
  elements.foldl (fun seen element => if seen.contains element then seen else seen ++ [element]) []

/-- One element of an enumeration. -/
structure Entry where
  label : String
  text : String
  deriving DecidableEq, Repr

structure Enumeration where
  typeName : String
  slot : String
  entries : List Entry
  deriving DecidableEq, Repr

/-- How a field reads the text of its variable. -/
inductive Reading where
  | char
  | integer
  /-- As an element of the enumeration `typeName`, made from the slot `slot`. -/
  | element (typeName slot : String)
  deriving DecidableEq, Repr

structure Field where
  key : String
  label : String
  reading : Reading
  required : Bool
  deriving DecidableEq, Repr

structure Arm where
  key : String
  variant : String
  fields : List Field
  deriving DecidableEq, Repr

structure Program where
  arms : List Arm
  enumerations : List Enumeration
  deriving DecidableEq, Repr

def Enumeration.ofSlot (target : Target) (slot : Slot) : Enumeration where
  typeName := target.identifier slot.name
  slot := slot.name
  entries := (distinct slot.elements).map fun element => ⟨target.identifier element, element⟩

/-- The reading for values of a type; an element type names a slot of the model. -/
def Reading.ofType? (target : Target) (model : Model) : ValueType → Option Reading
  | .char => some .char
  | .integer => some .integer
  | .element position =>
    (model.slot? position).map fun slot => .element (target.identifier slot.name) slot.name

def Field.ofVariable? (target : Target) (model : Model) (v : Variable) : Option Field :=
  (Reading.ofType? target model v.type).map fun reading =>
    ⟨v.name, target.identifier v.name, reading, v.required⟩

def Arm.ofIntent? (target : Target) (model : Model) (intent : Intent) : Option Arm :=
  (intent.vars.mapM (Field.ofVariable? target model)).map fun fields =>
    ⟨intent.name, target.intentType intent.name, fields⟩

/-- The decoder of a model; there is none if a variable names a slot that is not there. -/
def Program.ofModel? (target : Target) (model : Model) : Option Program :=
  (model.intents.mapM (Arm.ofIntent? target model)).map fun arms =>
    ⟨arms, model.slots.map (Enumeration.ofSlot target)⟩

end VoiceGrammar.Decoder
