/-
Decoding an inference result with a compiled model.

An inference names an intent and fills some variables with raw texts. Decoding
walks the variables of the first intent of that name in order: a text is turned
into a value of the variable's type, a variable without one is left empty unless
it is required. The first variable that does not fit decides the error.
-/
import VoiceGrammar.Model
import VoiceGrammar.Text.Numeral

namespace VoiceGrammar

set_option autoImplicit false

inductive Value where
  | char (value : Char)
  | integer (value : Int)
  /-- The element at position `index` of a slot. -/
  | element (slot element : String) (index : Nat)
  deriving DecidableEq, Repr

/-- The raw text of each variable that an inference fills. -/
abbrev Filling := String → Option String

/-- The filling that a list of pairs describes; of two texts for one name the later
counts. -/
def Filling.ofPairs (pairs : List (String × String)) : Filling :=
  fun name => pairs.reverse.lookup name

structure DecodedVariable where
  name : String
  value : Option Value
  deriving DecidableEq, Repr

inductive Decoded where
  | notUnderstood
  | understood (intent : String) (vars : List DecodedVariable)
  deriving DecidableEq, Repr

/-- The value of a variable, if the result has one. -/
def Decoded.value? (decoded : Decoded) (name : String) : Option Value :=
  match decoded with
  | notUnderstood => none
  | understood _ vars => (vars.find? (·.name == name)).bind (·.value)

inductive DecodeError where
  | unknownIntent (intent : String)
  | missingVariable (name : String)
  | invalidChar (name raw : String)
  | invalidInteger (name raw : String)
  | invalidElement (slot raw name : String)
  /-- The model has no slot at that position. -/
  | danglingSlot (position : Nat)
  deriving DecidableEq, Repr

def DecodeError.message : DecodeError → String
  | unknownIntent intent => "intent " ++ intent ++ " is not a legal intent kind"
  | missingVariable name =>
    "variable " ++ name ++ " is required by all expressions, but is not present"
  | invalidChar name raw =>
    "variable " ++ name ++ " must be a single char string but was '" ++ raw ++ "'"
  | invalidInteger name raw =>
    "variable " ++ name ++ " must be an integer string but was '" ++ raw ++ "'"
  | invalidElement slot raw name =>
    "slot " ++ slot ++ " does not have element " ++ raw ++ " given for variable " ++ name
  | danglingSlot position => "there is no slot at position " ++ Text.decimal position

namespace Model

/-- The value that `raw` denotes for a variable of that name and type. -/
def decodeValue (model : Model) (name : String) (type : ValueType) (raw : String) :
    Except DecodeError Value :=
  match type with
  | .char =>
    match raw.toList with
    | [c] => .ok (.char c)
    | _ => .error (.invalidChar name raw)
  | .integer =>
    match Text.word? raw with
    | some value => .ok (.integer value)
    | none => .error (.invalidInteger name raw)
  | .element position =>
    match model.slot? position with
    | none => .error (.danglingSlot position)
    | some slot =>
      match slot.position? raw with
      | some index => .ok (.element slot.name raw index)
      | none => .error (.invalidElement slot.name raw name)

def decodeVariable (model : Model) (filling : Filling) (v : Variable) :
    Except DecodeError DecodedVariable :=
  match filling v.name with
  | some raw => (model.decodeValue v.name v.type raw).map fun value => ⟨v.name, some value⟩
  | none => if v.required then .error (.missingVariable v.name) else .ok ⟨v.name, none⟩

def decode (model : Model) (intent : String) (understood : Bool) (filling : Filling) :
    Except DecodeError Decoded :=
  if understood then
    match model.intent? intent with
    | none => .error (.unknownIntent intent)
    | some found => (found.vars.mapM (model.decodeVariable filling)).map
        (Decoded.understood found.name)
  else .ok .notUnderstood

end Model

end VoiceGrammar
