/-
What commands print about a model, about a decoded result and about a written file.

Each has a text form, which ends in a line break, and a JSON form. A model shows slots
by name, so it has neither form if a variable names a slot that is not there.
-/
import VoiceGrammar.Decoding
import VoiceGrammar.Json.Value
import VoiceGrammar.Path
import VoiceGrammar.Target

namespace VoiceGrammar

set_option autoImplicit false

namespace Model

/-- The name of a type of values, if its slot is there. -/
def typeName? (model : Model) : ValueType → Option String
  | .char => some "char"
  | .integer => some "integer"
  | .element position => (model.slot? position).map (·.name)

def variableLine? (model : Model) (v : Variable) : Option String :=
  (model.typeName? v.type).map fun type =>
    "    " ++ v.name ++ ": " ++ type ++ (if v.required then "" else " (optional)") ++ "\n"

def intentLines? (model : Model) (intent : Intent) : Option String :=
  (intent.vars.mapM model.variableLine?).map fun lines =>
    "  " ++ intent.name ++ "\n" ++ String.join lines

end Model

def Slot.summaryLine (slot : Slot) : String :=
  "  slot " ++ slot.name ++ ": " ++ ", ".intercalate slot.elements ++ "\n"

namespace Model

/-- The intents with their variables, then the slots. -/
def summary? (model : Model) : Option String :=
  (model.intents.mapM model.intentLines?).map fun lines =>
    "Grammar OK: " ++ Text.decimal model.intents.length ++ " intent(s), " ++
      Text.decimal model.slots.length ++ " slot(s)\n" ++
      String.join lines ++
      String.join (model.slots.map Slot.summaryLine)

def variableJson? (model : Model) (v : Variable) : Option Json.Value :=
  (model.typeName? v.type).map fun type =>
    .object [("name", .string v.name), ("type", .string type), ("required", .bool v.required)]

def intentJson? (model : Model) (intent : Intent) : Option Json.Value :=
  (intent.vars.mapM model.variableJson?).map fun vars =>
    .object [("name", .string intent.name), ("variables", .array vars)]

end Model

def Slot.toJson (slot : Slot) : Json.Value :=
  .object [("name", .string slot.name), ("elements", .array (slot.elements.map .string))]

/-- The model with slots named instead of numbered. -/
def Model.toJson? (model : Model) : Option Json.Value :=
  (model.intents.mapM model.intentJson?).map fun intents =>
    .object [("intents", .array intents), ("slots", .array (model.slots.map Slot.toJson))]

namespace Value

def summary : Value → String
  | char value => "'" ++ value.toString ++ "'"
  | integer value => Text.signedDecimal value
  | element slot spelling _ => slot ++ "." ++ spelling

def toJson : Value → Json.Value
  | char value => .object [("kind", .string "char"), ("value", .string value.toString)]
  | integer value => .object [("kind", .string "integer"), ("value", .integer value)]
  | element slot spelling index =>
    .object [("kind", .string "element"), ("slot", .string slot), ("element", .string spelling),
      ("index", .integer index)]

end Value

namespace DecodedVariable

def summaryLine (decoded : DecodedVariable) : String :=
  "  " ++ decoded.name ++ " = " ++ ((decoded.value.map Value.summary).getD "(absent)") ++ "\n"

def toJson (decoded : DecodedVariable) : Json.Value :=
  .object [("name", .string decoded.name),
    ("value", (decoded.value.map Value.toJson).getD .null)]

end DecodedVariable

namespace Decoded

def summary : Decoded → String
  | notUnderstood => "NotUnderstood\n"
  | understood intent vars =>
    intent ++ "\n" ++ String.join (vars.map DecodedVariable.summaryLine)

def toJson : Decoded → Json.Value
  | notUnderstood => .object [("status", .string "not_understood")]
  | understood intent vars =>
    .object [("status", .string "understood"), ("intent", .string intent),
      ("variables", .array (vars.map DecodedVariable.toJson))]

end Decoded

/-- A decoder file that has been written. -/
structure WrittenDecoder where
  out : Path
  target : Target
  package : Option String
  deriving DecidableEq, Repr

namespace WrittenDecoder

def summary (written : WrittenDecoder) : String :=
  "Generated " ++ written.target.name ++ " decoder in " ++ written.out.text ++ "\n"

def toJson (written : WrittenDecoder) : Json.Value :=
  .object [("output_file", .string written.out.text), ("target", .string written.target.name),
    ("package", (written.package.map .string).getD .null)]

end WrittenDecoder

end VoiceGrammar
