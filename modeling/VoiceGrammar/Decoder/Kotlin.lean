/-
Decoders written in Kotlin: a sealed interface of the intents with a factory `from`.

The file declares the intents inside the interface, an enumeration for each slot,
the exceptions, and the helpers through which `from` reads the slot texts. What differs
between files is their package and a tree (`Source`), with literals and names as they stand
in the text; the exceptions and the helpers are the same in all of them. The tree of a
program is written down line by line (`Source.lines`).
-/
import VoiceGrammar.Decoder.Line
import VoiceGrammar.Decoder.Program
import VoiceGrammar.Decoder.Quoted

namespace VoiceGrammar.Decoder.Kotlin

set_option autoImplicit false

/-! ## Trees -/

/-- `base`, or `base?` for a type with null. -/
structure TypeRef where
  base : TypeName
  nullable : Bool
  deriving DecidableEq, Repr

/-- The expressions that are passed to the constructor of an intent. -/
inductive Expr where
  /-- `slots.getChar(key)` -/
  | getChar (key : String)
  /-- `slots.getInt(key)` -/
  | getInt (key : String)
  /-- `slots.getSlot<typeName>(key, slot)` -/
  | getSlot (typeName key slot : String)
  /-- `value.require(key)` -/
  | require (value : Expr) (key : String)
  deriving DecidableEq, Repr

/-- `val label: type` -/
structure Parameter where
  label : String
  type : TypeRef
  deriving DecidableEq, Repr

/-- `data class name(parameters) : Intent`, and `object name : Intent` without parameters. -/
structure IntentDecl where
  name : String
  parameters : List Parameter
  deriving DecidableEq, Repr

/-- `pattern -> name(arguments)`, and `pattern -> name` without arguments. -/
structure Branch where
  pattern : String
  name : String
  arguments : List Expr
  deriving DecidableEq, Repr

/-- The enumeration of a slot. -/
structure EnumDecl where
  name : String
  entries : List String
  deriving DecidableEq, Repr

/-- What distinguishes one decoder from another, apart from the package. -/
structure Source where
  intents : List IntentDecl
  branches : List Branch
  enums : List EnumDecl
  deriving DecidableEq, Repr

/-! ## The tree of a program -/

/-- A dollar would start a template in a literal. -/
def literal (text : String) : String :=
  quote true text

def baseType : Reading → TypeName
  | .char => .builtin "Char"
  | .integer => .builtin "Int"
  | .element typeName _ => .enumeration typeName

def TypeRef.ofField (field : Field) : TypeRef where
  base := baseType field.reading
  nullable := !field.required

def Expr.ofReading (key : String) : Reading → Expr
  | .char => .getChar (literal key)
  | .integer => .getInt (literal key)
  | .element typeName slot => .getSlot typeName (literal key) (literal slot)

/-- The expression that reads a field out of the slot texts. -/
def Expr.ofField (field : Field) : Expr :=
  let lookup := ofReading field.key field.reading
  if field.required then require lookup (literal field.key) else lookup

def Parameter.ofField (field : Field) : Parameter where
  label := field.label
  type := .ofField field

def IntentDecl.ofArm (arm : Arm) : IntentDecl where
  name := arm.variant
  parameters := arm.fields.map .ofField

def Branch.ofArm (arm : Arm) : Branch where
  pattern := literal arm.key
  name := arm.variant
  arguments := arm.fields.map .ofField

def EnumDecl.ofEnumeration (enumeration : Enumeration) : EnumDecl where
  name := enumeration.typeName
  entries := enumeration.entries.map (·.label)

def Source.ofProgram (program : Program) : Source where
  intents := program.arms.map .ofArm
  branches := program.arms.map .ofArm
  enums := program.enumerations.map .ofEnumeration

/-! ## The text of a tree -/

/-- The exceptions of `from` and their wording. -/
def exceptionLines : List String := [
  "sealed class IntentDecodingException(message: String) : Exception(message) \x7b",
  "    class UnknownIntentName(val intent: String?) :",
  "        IntentDecodingException(\"Intent $intent is not a legal intent kind\")",
  "",
  "    class MissingRequiredVariable(val variable: String) :",
  "        IntentDecodingException(\"Variable $variable is required by all expressions, but is not present\")",
  "",
  "    class InvalidCharValue(val variable: String, val raw: String) :",
  "        IntentDecodingException(\"Variable $variable must be a single char string but was '$raw'\")",
  "",
  "    class InvalidIntegerValue(val variable: String, val raw: String) :",
  "        IntentDecodingException(\"Variable $variable must be an integer string but was '$raw'\")",
  "",
  "    class InvalidEnumValue(val slot: String, val element: String, val variable: String) :",
  "        IntentDecodingException(\"Slot $slot does not have element $element given for variable $variable\")",
  "\x7d"]

/-- The functions that read one slot text. -/
def helperLines : List String := [
  "private inline fun <reified T : Enum<T>> Map<String, String>.getSlot(key: String, slot: String): T? =",
  "    this[key]?.let \x7b raw ->",
  "        enumValues<T>().firstOrNull \x7b it.name == raw \x7d",
  "            ?: throw IntentDecodingException.InvalidEnumValue(slot, raw, key)",
  "    \x7d",
  "",
  "private fun Map<String, String>.getInt(key: String): Int? =",
  "    this[key]?.let \x7b it.toIntOrNull() ?: throw IntentDecodingException.InvalidIntegerValue(key, it) \x7d",
  "",
  "private fun Map<String, String>.getChar(key: String): Char? =",
  "    this[key]?.let \x7b it.singleOrNull() ?: throw IntentDecodingException.InvalidCharValue(key, it) \x7d",
  "",
  "private fun <T> T?.require(key: String): T =",
  "    this ?: throw IntentDecodingException.MissingRequiredVariable(key)"]

def TypeRef.line (type : TypeRef) : Line :=
  if type.nullable then [type.base.piece, .fixed "?"] else [type.base.piece]

def Parameter.line (parameter : Parameter) : Line :=
  [.fixed "val ", .label parameter.label, .fixed ": "] ++ parameter.type.line

def IntentDecl.line (decl : IntentDecl) : Line :=
  if decl.parameters.isEmpty then [.fixed "    object ", .label decl.name, .fixed " : Intent"]
  else
    [.fixed "    data class ", .label decl.name, .fixed "("] ++
    Line.commaSeparated (decl.parameters.map Parameter.line) ++
    [.fixed ") : Intent"]

def Expr.line : Expr → Line
  | getChar key => [.fixed "slots.getChar(", .literal key, .fixed ")"]
  | getInt key => [.fixed "slots.getInt(", .literal key, .fixed ")"]
  | getSlot typeName key slot =>
    [.fixed "slots.getSlot<", .label typeName, .fixed ">(", .literal key, .fixed ", ",
      .literal slot, .fixed ")"]
  | require value key => value.line ++ [.fixed ".require(", .literal key, .fixed ")"]

def Branch.line (branch : Branch) : Line :=
  let head : Line :=
    [.fixed "                ", .literal branch.pattern, .fixed " -> ", .label branch.name]
  if branch.arguments.isEmpty then head
  else
    head ++ [.fixed "("] ++ Line.commaSeparated (branch.arguments.map Expr.line) ++ [.fixed ")"]

def EnumDecl.line (decl : EnumDecl) : Line :=
  [.fixed "enum class ", .label decl.name, .fixed " \x7b "] ++
    Line.commaSeparated (decl.entries.map fun entry => [.label entry]) ++ [.fixed " \x7d"]

def packageLines : Option String → List Line
  | none => []
  | some package => [[.fixed "package ", .package package]]

/-- The lines of the file. -/
def Source.lines (package : Option String) (source : Source) : List Line :=
  fixedLines ["// This file is generated by phrasebook. Do not edit."] ++
  packageLines package ++
  fixedLines ["",
    "sealed interface Intent \x7b",
    "    object NotUnderstood : Intent"] ++
  source.intents.map IntentDecl.line ++
  fixedLines ["",
    "    companion object \x7b",
    "        fun from(intent: String?, isUnderstood: Boolean, slots: Map<String, String>): Intent \x7b",
    "            if (!isUnderstood)",
    "                return NotUnderstood",
    "            return when (intent) \x7b"] ++
  source.branches.map Branch.line ++
  fixedLines ["                else -> throw IntentDecodingException.UnknownIntentName(intent)",
    "            \x7d",
    "        \x7d",
    "    \x7d",
    "\x7d", ""] ++
  source.enums.map EnumDecl.line ++
  fixedLines ([""] ++ exceptionLines ++ [""] ++ helperLines)

def Source.text (package : Option String) (source : Source) : String :=
  textOf (source.lines package)

/-- The text of the file. -/
def render (package : Option String) (program : Program) : String :=
  (Source.ofProgram program).text package

end VoiceGrammar.Decoder.Kotlin
