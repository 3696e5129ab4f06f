/-
Decoders written in Rust: one module that needs only the standard library.

The module declares an enumeration of the intents, an enumeration for each slot,
the errors, the function `decode`, and the helpers through which its arms read the
slot texts. What differs between modules is a tree (`Source`), with literals and names as
they stand in the text; the errors and the helpers are the same in all of them. The tree of
a program is written down line by line (`Source.lines`).
-/
import VoiceGrammar.Decoder.Line
import VoiceGrammar.Decoder.Program
import VoiceGrammar.Decoder.Quoted

namespace VoiceGrammar.Decoder.Rust

set_option autoImplicit false

/-! ## Trees -/

/-- The expressions that fields are initialised with. -/
inductive Expr where
  /-- `slot_char(slots, key)` -/
  | slotChar (key : String)
  /-- `slot_integer(slots, key)` -/
  | slotInteger (key : String)
  /-- `slot_element(slots, key, named::NAME, parsing::parse)` -/
  | slotElement (key named parsing : String)
  /-- `required(key, value)` -/
  | required (key : String) (value : Expr)
  /-- `result?` -/
  | propagate (result : Expr)
  deriving DecidableEq, Repr

/-- `label: value` in a variant that is built. -/
structure Initialiser where
  label : String
  value : Expr
  deriving DecidableEq, Repr

/-- `pattern => Ok(Intent::variant ...)` -/
structure DecodeArm where
  pattern : String
  variant : String
  fields : List Initialiser
  deriving DecidableEq, Repr

/-- `base`, or `Option<base>` where a value may be missing. -/
structure TypeRef where
  base : TypeName
  optional : Bool
  deriving DecidableEq, Repr

/-- A variant of `Intent`, with the labels and types of its fields. -/
structure VariantDecl where
  name : String
  fields : List (String × TypeRef)
  deriving DecidableEq, Repr

/-- `pattern => Some(typeName::label)` -/
structure ParseArm where
  pattern : String
  typeName : String
  label : String
  deriving DecidableEq, Repr

/-- `typeName::label => text` -/
structure TextArm where
  typeName : String
  label : String
  text : String
  deriving DecidableEq, Repr

/-- A slot enumeration: its variants, the constants `NAME` and `ELEMENTS`, and the
arms of `parse` and `as_str`. -/
structure EnumDecl where
  typeName : String
  variants : List String
  name : String
  elements : List String
  parseArms : List ParseArm
  textArms : List TextArm
  deriving DecidableEq, Repr

/-- What distinguishes one decoder from another. -/
structure Source where
  variants : List VariantDecl
  enums : List EnumDecl
  arms : List DecodeArm
  deriving DecidableEq, Repr

/-! ## The tree of a program -/

/-- A dollar is an ordinary character of a literal. -/
def literal (text : String) : String :=
  quote false text

def Expr.ofReading (key : String) : Reading → Expr
  | .char => .slotChar (literal key)
  | .integer => .slotInteger (literal key)
  | .element typeName _ => .slotElement (literal key) typeName typeName

/-- The expression that reads a field out of the slot texts. -/
def Expr.ofField (field : Field) : Expr :=
  let lookup := propagate (ofReading field.key field.reading)
  if field.required then propagate (required (literal field.key) lookup) else lookup

def Initialiser.ofField (field : Field) : Initialiser where
  label := field.label
  value := .ofField field

def DecodeArm.ofArm (arm : Arm) : DecodeArm where
  pattern := literal arm.key
  variant := arm.variant
  fields := arm.fields.map .ofField

def baseType : Reading → TypeName
  | .char => .builtin "char"
  | .integer => .builtin "i64"
  | .element typeName _ => .enumeration typeName

def TypeRef.ofField (field : Field) : TypeRef where
  base := baseType field.reading
  optional := !field.required

def VariantDecl.ofArm (arm : Arm) : VariantDecl where
  name := arm.variant
  fields := arm.fields.map fun field => (field.label, .ofField field)

def EnumDecl.ofEnumeration (enumeration : Enumeration) : EnumDecl where
  typeName := enumeration.typeName
  variants := enumeration.entries.map (·.label)
  name := literal enumeration.slot
  elements := enumeration.entries.map fun entry => literal entry.text
  parseArms := enumeration.entries.map fun entry =>
    ⟨literal entry.text, enumeration.typeName, entry.label⟩
  textArms := enumeration.entries.map fun entry =>
    ⟨enumeration.typeName, entry.label, literal entry.text⟩

def Source.ofProgram (program : Program) : Source where
  variants := program.arms.map .ofArm
  enums := program.enumerations.map .ofEnumeration
  arms := program.arms.map .ofArm

/-! ## The text of a tree -/

/-- The errors of `decode` and their wording. -/
def decodeErrorLines : List String := [
  "/// Why an inference result does not fit the generated intents.",
  "#[derive(Debug, Clone, PartialEq, Eq)]",
  "pub enum DecodeError \x7b",
  "    UnknownIntentName \x7b",
  "        intent: String,",
  "    \x7d,",
  "    MissingRequiredVariable \x7b",
  "        variable: &'static str,",
  "    \x7d,",
  "    InvalidCharValue \x7b",
  "        variable: &'static str,",
  "        raw: String,",
  "    \x7d,",
  "    InvalidIntegerValue \x7b",
  "        variable: &'static str,",
  "        raw: String,",
  "    \x7d,",
  "    InvalidEnumValue \x7b",
  "        slot: &'static str,",
  "        element: String,",
  "        variable: &'static str,",
  "    \x7d,",
  "\x7d",
  "",
  "impl fmt::Display for DecodeError \x7b",
  "    fn fmt(&self, f: &mut fmt::Formatter<'_>) -> fmt::Result \x7b",
  "        match self \x7b",
  "            DecodeError::UnknownIntentName \x7b intent \x7d => \x7b",
  "                write!(f, \"intent \x7b\x7d is not a legal intent kind\", intent)",
  "            \x7d",
  "            DecodeError::MissingRequiredVariable \x7b variable \x7d => write!(",
  "                f,",
  "                \"variable \x7b\x7d is required by all expressions, but is not present\",",
  "                variable",
  "            ),",
  "            DecodeError::InvalidCharValue \x7b variable, raw \x7d => write!(",
  "                f,",
  "                \"variable \x7b\x7d must be a single char string but was '\x7b\x7d'\",",
  "                variable, raw",
  "            ),",
  "            DecodeError::InvalidIntegerValue \x7b variable, raw \x7d => write!(",
  "                f,",
  "                \"variable \x7b\x7d must be an integer string but was '\x7b\x7d'\",",
  "                variable, raw",
  "            ),",
  "            DecodeError::InvalidEnumValue \x7b",
  "                slot,",
  "                element,",
  "                variable,",
  "            \x7d => write!(",
  "                f,",
  "                \"slot \x7b\x7d does not have element \x7b\x7d given for variable \x7b\x7d\",",
  "                slot, element, variable",
  "            ),",
  "        \x7d",
  "    \x7d",
  "\x7d",
  "",
  "impl std::error::Error for DecodeError \x7b\x7d"]

/-- The functions that read one slot text. -/
def helperLines : List String := [
  "#[allow(dead_code)]",
  "fn required<T>(variable: &'static str, value: Option<T>) -> Result<T, DecodeError> \x7b",
  "    value.ok_or(DecodeError::MissingRequiredVariable \x7b variable \x7d)",
  "\x7d",
  "",
  "#[allow(dead_code)]",
  "fn slot_char(",
  "    slots: &HashMap<String, String>,",
  "    variable: &'static str,",
  ") -> Result<Option<char>, DecodeError> \x7b",
  "    let Some(raw) = slots.get(variable) else \x7b",
  "        return Ok(None);",
  "    \x7d;",
  "    let mut chars = raw.chars();",
  "    match (chars.next(), chars.next()) \x7b",
  "        (Some(c), None) => Ok(Some(c)),",
  "        _ => Err(DecodeError::InvalidCharValue \x7b",
  "            variable,",
  "            raw: raw.clone(),",
  "        \x7d),",
  "    \x7d",
  "\x7d",
  "",
  "#[allow(dead_code)]",
  "fn slot_integer(",
  "    slots: &HashMap<String, String>,",
  "    variable: &'static str,",
  ") -> Result<Option<i64>, DecodeError> \x7b",
  "    let Some(raw) = slots.get(variable) else \x7b",
  "        return Ok(None);",
  "    \x7d;",
  "    raw.parse::<i64>()",
  "        .map(Some)",
  "        .map_err(|_| DecodeError::InvalidIntegerValue \x7b",
  "            variable,",
  "            raw: raw.clone(),",
  "        \x7d)",
  "\x7d",
  "",
  "#[allow(dead_code)]",
  "fn slot_element<T>(",
  "    slots: &HashMap<String, String>,",
  "    variable: &'static str,",
  "    slot: &'static str,",
  "    parse: fn(&str) -> Option<T>,",
  ") -> Result<Option<T>, DecodeError> \x7b",
  "    let Some(raw) = slots.get(variable) else \x7b",
  "        return Ok(None);",
  "    \x7d;",
  "    parse(raw)",
  "        .map(Some)",
  "        .ok_or_else(|| DecodeError::InvalidEnumValue \x7b",
  "            slot,",
  "            element: raw.clone(),",
  "            variable,",
  "        \x7d)",
  "\x7d"]

def TypeRef.line (type : TypeRef) : Line :=
  if type.optional then [.fixed "Option<", type.base.piece, .fixed ">"] else [type.base.piece]

def VariantDecl.lines (decl : VariantDecl) : List Line :=
  if decl.fields.isEmpty then [[.fixed "    ", .label decl.name, .fixed ","]]
  else
    [[.fixed "    ", .label decl.name, .fixed " \x7b"]] ++
    decl.fields.map (fun (label, type) =>
      [.fixed "        ", .label label, .fixed ": "] ++ type.line ++ [.fixed ","]) ++
    [[.fixed "    \x7d,"]]

def ParseArm.line (arm : ParseArm) : Line :=
  [.fixed "            ", .literal arm.pattern, .fixed " => Some(", .label arm.typeName,
    .fixed "::", .label arm.label, .fixed "),"]

def TextArm.line (arm : TextArm) : Line :=
  [.fixed "            ", .label arm.typeName, .fixed "::", .label arm.label, .fixed " => ",
    .literal arm.text, .fixed ","]

def EnumDecl.lines (decl : EnumDecl) : List Line :=
  [[.fixed "#[allow(non_camel_case_types)]"],
    [.fixed "#[derive(Debug, Clone, Copy, PartialEq, Eq, Hash)]"],
    [.fixed "pub enum ", .label decl.typeName, .fixed " \x7b"]] ++
  decl.variants.map (fun label => [.fixed "    ", .label label, .fixed ","]) ++
  [[.fixed "\x7d"],
    [.fixed ""],
    [.fixed "impl ", .label decl.typeName, .fixed " \x7b"],
    [.fixed "    pub const NAME: &'static str = ", .literal decl.name, .fixed ";"],
    [.fixed "    pub const ELEMENTS: &'static [&'static str] = &["] ++
      Line.commaSeparated (decl.elements.map fun element => [.literal element]) ++ [.fixed "];"],
    [.fixed ""],
    [.fixed "    pub fn parse(raw: &str) -> Option<Self> \x7b"],
    [.fixed "        match raw \x7b"]] ++
  decl.parseArms.map ParseArm.line ++
  fixedLines ["            _ => None,",
    "        \x7d",
    "    \x7d", "",
    "    pub fn as_str(&self) -> &'static str \x7b",
    "        match *self \x7b"] ++
  decl.textArms.map TextArm.line ++
  fixedLines ["        \x7d",
    "    \x7d",
    "\x7d", ""]

def Expr.line : Expr → Line
  | slotChar key => [.fixed "slot_char(slots, ", .literal key, .fixed ")"]
  | slotInteger key => [.fixed "slot_integer(slots, ", .literal key, .fixed ")"]
  | slotElement key named parsing =>
    [.fixed "slot_element(slots, ", .literal key, .fixed ", ", .label named, .fixed "::NAME, ",
      .label parsing, .fixed "::parse)"]
  | required key value => [.fixed "required(", .literal key, .fixed ", "] ++ value.line ++ [.fixed ")"]
  | propagate result => result.line ++ [.fixed "?"]

def Initialiser.line (field : Initialiser) : Line :=
  [.fixed "            ", .label field.label, .fixed ": "] ++ field.value.line ++ [.fixed ","]

def DecodeArm.lines (arm : DecodeArm) : List Line :=
  let head : Line :=
    [.fixed "        ", .literal arm.pattern, .fixed " => Ok(Intent::", .label arm.variant]
  if arm.fields.isEmpty then [head ++ [.fixed "),"]]
  else [head ++ [.fixed " \x7b"]] ++ arm.fields.map Initialiser.line ++ [[.fixed "        \x7d),"]]

/-- The lines of the module. -/
def Source.lines (source : Source) : List Line :=
  fixedLines ["// This file is generated by phrasebook. Do not edit.", "",
    "use std::collections::HashMap;",
    "use std::fmt;", "",
    "/// Intents of this grammar, decoded from an inference result.",
    "#[allow(non_camel_case_types, non_snake_case)]",
    "#[derive(Debug, Clone, PartialEq, Eq)]",
    "pub enum Intent \x7b",
    "    /// The input was not understood.",
    "    NotUnderstood,"] ++
  source.variants.flatMap VariantDecl.lines ++
  fixedLines ["\x7d", ""] ++
  source.enums.flatMap EnumDecl.lines ++
  fixedLines (decodeErrorLines ++
    ["",
      "/// Decode an inference result into an [`Intent`].",
      "#[allow(unused_variables)]",
      "pub fn decode(",
      "    intent: &str,",
      "    is_understood: bool,",
      "    slots: &HashMap<String, String>,",
      ") -> Result<Intent, DecodeError> \x7b",
      "    if !is_understood \x7b",
      "        return Ok(Intent::NotUnderstood);",
      "    \x7d",
      "    match intent \x7b"]) ++
  source.arms.flatMap DecodeArm.lines ++
  fixedLines (["        _ => Err(DecodeError::UnknownIntentName \x7b",
      "            intent: intent.to_string(),",
      "        \x7d),",
      "    \x7d",
      "\x7d", ""] ++
    helperLines)

def Source.text (source : Source) : String :=
  textOf source.lines

/-- The text of the module. -/
def render (program : Program) : String :=
  (Source.ofProgram program).text

end VoiceGrammar.Decoder.Rust
