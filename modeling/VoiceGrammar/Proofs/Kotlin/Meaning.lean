/-
# What the Kotlin that is written means

A compiler and an evaluator for the trees that decoders are written from, by the rules of
the language and not by what a decoder is for.

A text that does not compile means nothing, however it is called (`Source.Compiles`).
Names of types are looked up from the inside out: inside `Intent` the types nested in it
hide those of the file, and these hide those of the library (`Source.resolve`). So the
name of a slot or an intent can take the place of a type that the text relies on. In
`from` the parameters hide an object that is named alone, and `equals` with one argument
is the method that everything has. Arguments have to fit the parameters of the class
that is built, and null only where it is allowed.

A text that compiles is run: branches are tried from top to bottom, arguments are
evaluated from left to right, and the first exception ends the run. The helpers do what
their text says. Whether names can be written as identifiers, and what a platform asks
beyond the language, is not considered.
-/
import Mathlib.Data.List.Forall2
import VoiceGrammar.Decoder.Kotlin
import VoiceGrammar.Proofs.Kotlin.Library
import VoiceGrammar.Proofs.Literals

namespace VoiceGrammar.Decoder.Kotlin

set_option autoImplicit false

/-- The text that a literal denotes, if it holds no template. -/
def denoted (literal : String) : Option String :=
  match unquote? true literal.toList with
  | some (text, []) => if bareDollar literal.toList then none else some (String.ofList text)
  | _ => none

theorem denoted_literal (text : String) : denoted (literal text) = some text := by
  have read := unquote?_quoteChars true text.toList []
  rw [List.append_nil] at read
  simp [denoted, literal, quote, read, bareDollar_quoteChars]

/-! ## Names of types -/

/-- Where a type is named. -/
inductive Scope where
  /-- At the top level, in the exceptions and the helpers. -/
  | file
  /-- Inside `Intent`. -/
  | intent
  deriving DecidableEq, Repr

/-- What a type name stands for. -/
inductive Classifier where
  | nested (name : String)
  | topLevel (name : String)
  | library (name : String)
  deriving DecidableEq, Repr

def Classifier.name : Classifier → String
  | nested name => name
  | topLevel name => name
  | library name => name

/-- The types of the library that decoders name. -/
def libraryTypes : List String :=
  ["String", "Boolean", "Int", "Char", "Enum", "Map", "Exception"]

/-- The types that the text common to all decoders names, and what they are there. -/
def fixedTypes : List (Scope × Classifier) := [
  (.intent, .topLevel "Intent"), (.intent, .topLevel "IntentDecodingException"),
  (.intent, .library "String"), (.intent, .library "Boolean"), (.intent, .library "Map"),
  (.file, .topLevel "IntentDecodingException"),
  (.file, .library "String"), (.file, .library "Exception"), (.file, .library "Enum"),
  (.file, .library "Map"), (.file, .library "Int"), (.file, .library "Char")]

/-- Something else goes by the name: a parameter of `from` where it stands alone, and the method
`equals` where it is called with one argument. -/
def Branch.hidden (branch : Branch) : Bool :=
  match branch.arguments with
  | [] => ["intent", "isUnderstood", "slots"].contains branch.name
  | [_] => branch.name == "equals"
  | _ => false

def Expr.literals : Expr → List String
  | getChar key => [key]
  | getInt key => [key]
  | getSlot _ key slot => [key, slot]
  | require value key => key :: value.literals

structure StaticType where
  classifier : Classifier
  nullable : Bool
  deriving DecidableEq, Repr

/-- A value of the one type can be passed where the other is declared. -/
def StaticType.Fits (given declared : StaticType) : Prop :=
  given.classifier = declared.classifier ∧ (given.nullable = true → declared.nullable = true)

instance (given declared : StaticType) : Decidable (given.Fits declared) :=
  inferInstanceAs (Decidable (_ ∧ _))

namespace Source

variable (source : Source)

def nestedTypes : List String :=
  "NotUnderstood" :: "Companion" :: source.intents.map (·.name)

def topLevelTypes : List String :=
  "Intent" :: "IntentDecodingException" :: source.enums.map (·.name)

/-- Inner declarations hide outer ones, and these the library. -/
def resolve (scope : Scope) (name : String) : Option Classifier :=
  if scope = .intent ∧ name ∈ source.nestedTypes then some (.nested name)
  else if name ∈ source.topLevelTypes then some (.topLevel name)
  else if name ∈ libraryTypes then some (.library name)
  else none

/-! ## Texts that compile -/

def declaredType (type : TypeRef) : Option StaticType :=
  (source.resolve .intent type.base.name).map (⟨·, type.nullable⟩)

def isEnum (classifier : Classifier) : Bool :=
  source.enums.any fun decl => Classifier.topLevel decl.name == classifier

def typeOf : Expr → Option StaticType
  | .getChar _ => (source.resolve .file "Char").map (⟨·, true⟩)
  | .getInt _ => (source.resolve .file "Int").map (⟨·, true⟩)
  -- the type parameter of the helper has the bound `Enum<T>`
  | .getSlot typeName _ _ =>
    ((source.resolve .intent typeName).filter source.isEnum).map (⟨·, true⟩)
  | .require value _ => (typeOf value).map ({ · with nullable := false })

/-- The argument has a type, and it is one that fits the parameter. -/
def Passes (argument : Expr) (parameter : Parameter) : Prop :=
  (∀ literal ∈ argument.literals, (denoted literal).isSome = true) ∧
  ∃ given ∈ source.typeOf argument, ∃ declared ∈ source.declaredType parameter.type,
    given.Fits declared

/-- What a branch names is a type nested in `Intent`, with parameters that the arguments fit. -/
def Admits (branch : Branch) : Prop :=
  (denoted branch.pattern).isSome = true ∧ branch.hidden = false ∧
  ∃ decl ∈ source.intents.find? (·.name == branch.name),
    List.Forall₂ source.Passes branch.arguments decl.parameters

structure Compiles : Prop where
  topLevel : source.topLevelTypes.Nodup
  nested : source.nestedTypes.Nodup
  fixed : ∀ type ∈ fixedTypes, source.resolve type.1 type.2.name = some type.2
  labels : ∀ decl ∈ source.intents, (decl.parameters.map (·.label)).Nodup
  entries : ∀ decl ∈ source.enums, decl.entries.Nodup
  branches : ∀ branch ∈ source.branches, source.Admits branch

instance (argument : Expr) (parameter : Parameter) : Decidable (source.Passes argument parameter) :=
  inferInstanceAs (Decidable ((∀ literal ∈ argument.literals, (denoted literal).isSome = true) ∧
    ∃ given ∈ source.typeOf argument, ∃ declared ∈ source.declaredType parameter.type,
      given.Fits declared))

instance (branch : Branch) : Decidable (source.Admits branch) :=
  inferInstanceAs (Decidable ((denoted branch.pattern).isSome = true ∧ branch.hidden = false ∧
    ∃ decl ∈ source.intents.find? (·.name == branch.name),
      List.Forall₂ source.Passes branch.arguments decl.parameters))

instance : Decidable source.Compiles :=
  decidable_of_iff (source.topLevelTypes.Nodup ∧ source.nestedTypes.Nodup ∧
      (∀ type ∈ fixedTypes, source.resolve type.1 type.2.name = some type.2) ∧
      (∀ decl ∈ source.intents, (decl.parameters.map (·.label)).Nodup) ∧
      (∀ decl ∈ source.enums, decl.entries.Nodup) ∧
      ∀ branch ∈ source.branches, source.Admits branch)
    ⟨fun ⟨topLevel, nested, fixed, labels, entries, branches⟩ =>
        ⟨topLevel, nested, fixed, labels, entries, branches⟩,
      fun compiles => ⟨compiles.topLevel, compiles.nested, compiles.fixed, compiles.labels,
        compiles.entries, compiles.branches⟩⟩

end Source

/-! ## Values, and how a run stops -/

/-- What a slot variable can hold, besides null. -/
inductive Datum where
  | char (unit : UInt16)
  | int (value : Int32)
  /-- `typeName.label` -/
  | entry (typeName label : String)
  deriving DecidableEq, Repr

/-- `IntentDecodingException` -/
inductive DecodingException where
  | unknownIntentName (intent : Option String)
  | missingRequiredVariable (name : String)
  | invalidCharValue (name raw : String)
  | invalidIntegerValue (name raw : String)
  | invalidEnumValue (slot element name : String)
  deriving DecidableEq, Repr

inductive Stop where
  /-- The text has no meaning. -/
  | stuck
  | thrown (exception : DecodingException)
  deriving DecidableEq, Repr

abbrev Eval := Except Stop

/-- A value of type `Intent`: its type and the properties under their names. -/
structure Instance where
  name : String
  fields : List (String × Option Datum)
  deriving DecidableEq, Repr

/-! ## The helpers -/

/-- `value ?: throw otherwise` -/
def orThrow (otherwise : DecodingException) : Option Datum → Eval Datum
  | some datum => .ok datum
  | none => .error (.thrown otherwise)

/-- `this[key]?.let \x7b raw -> read(raw) ?: throw otherwise(raw) \x7d` -/
def readOrThrow (slots : Filling) (key : String) (read : String → Option Datum)
    (otherwise : String → DecodingException) : Eval (Option Datum) :=
  match slots key with
  | none => .ok none
  | some raw => (orThrow (otherwise raw) (read raw)).map some

def getChar (slots : Filling) (key : String) : Eval (Option Datum) :=
  readOrThrow slots key (fun raw => (singleOrNull raw).map .char) (.invalidCharValue key)

def getInt (slots : Filling) (key : String) : Eval (Option Datum) :=
  readOrThrow slots key (fun raw => (toIntOrNull raw).map .int) (.invalidIntegerValue key)

def getSlot (slots : Filling) (decl : EnumDecl) (key slot : String) : Eval (Option Datum) :=
  readOrThrow slots key (fun raw => (decl.entries.find? (· == raw)).map (.entry decl.name))
    (fun raw => .invalidEnumValue slot raw key)

def require (value : Option Datum) (key : String) : Eval (Option Datum) :=
  (orThrow (.missingRequiredVariable key) value).map some

/-! ## Runs -/

def orStuck {α : Type} : Option α → Eval α
  | some value => .ok value
  | none => .error .stuck

namespace Source

variable (source : Source)

def eval (slots : Filling) : Expr → Eval (Option Datum)
  | .getChar key => do getChar slots (← orStuck (denoted key))
  | .getInt key => do getInt slots (← orStuck (denoted key))
  | .getSlot typeName key slot => do
    -- where the text compiles, the name is that of an enumeration and of nothing else
    let decl ← orStuck (source.enums.find? (·.name == typeName))
    getSlot slots decl (← orStuck (denoted key)) (← orStuck (denoted slot))
  | .require value key => do require (← eval slots value) (← orStuck (denoted key))

/-- An object, or an instance of a class with these properties. -/
def construct (name : String) (values : List (Option Datum)) : Eval Instance := do
  let decl ← orStuck (source.intents.find? (·.name == name))
  return ⟨name, (decl.parameters.map (·.label)).zip values⟩

/-- The first branch for that text. -/
def branch? (text : String) : Option Branch :=
  source.branches.find? fun branch => denoted branch.pattern == some text

/-- The function `from`. -/
def decode (intent : Option String) (understood : Bool) (slots : Filling) : Eval Instance :=
  if source.Compiles then
    if understood then
      match intent.bind source.branch? with
      | none => .error (.thrown (.unknownIntentName intent))
      | some branch => do
        let values ← branch.arguments.mapM (source.eval slots)
        source.construct branch.name values
    else .ok ⟨"NotUnderstood", []⟩
  else .error .stuck

end Source

/-- A text finds the branch of the first arm with that key. -/
theorem branch?_ofProgram (program : Program) (text : String) :
    (Source.ofProgram program).branch? text =
      (program.arms.find? (·.key == text)).map Branch.ofArm := by
  have denotes : ∀ arm : Arm,
      (denoted (Branch.ofArm arm).pattern == some text) = (arm.key == text) := by
    intro arm
    rw [Branch.ofArm, denoted_literal]
    rfl
  simp only [Source.branch?, Source.ofProgram, List.find?_map, Function.comp_def, denotes]

end VoiceGrammar.Decoder.Kotlin
