/-
# What the Rust that is written means

An evaluator for the trees that decoders are written from, by the rules of the language
and not by what a decoder is for. Arms are tried from top to bottom against the text that
their literal denotes, initialisers run in the order in which they stand, and `?` leaves
the function with the first error. The helpers do what their text says.

A tree can be wrong in ways in which a program that renders is not: a literal that
does not close, a name that nothing or more than one thing declares, a variant built
with other fields than it has. Evaluation is then stuck, and this is told apart from
returning an error. What else a compiler rejects before anything is run is not considered:
names that are no identifiers, a slot called `Option`, which takes the place of a type that
the helpers name, and an element called `parse` or `NAME`, which takes that of a function or
a constant of its enumeration.
-/
import VoiceGrammar.Decoder.Rust
import VoiceGrammar.Decoding
import VoiceGrammar.Proofs.Literals
import VoiceGrammar.Proofs.Outcome

namespace VoiceGrammar.Decoder.Rust

set_option autoImplicit false

/-! ## Values, and how evaluation stops -/

/-- What a slot variable can hold. -/
inductive Datum where
  | char (value : Char)
  | integer (value : Int)
  /-- `typeName::label` -/
  | variant (typeName label : String)
  deriving DecidableEq, Repr

/-- Values of the types `T`, `Option<T>` and `Result<_, DecodeError>` over them. -/
inductive Val where
  | plain (datum : Datum)
  | option (datum? : Option Datum)
  | ok (value : Val)
  | err (error : DecodeError)
  deriving DecidableEq, Repr

inductive Stop where
  /-- The text has no meaning. -/
  | stuck
  /-- The function returns `Err(error)`. -/
  | returned (error : DecodeError)
  deriving DecidableEq, Repr

abbrev Eval := Except Stop

/-- A value of type `Intent`: its variant and the fields under their labels. -/
structure Instance where
  variant : String
  fields : List (String × Val)
  deriving DecidableEq, Repr

/-! ## Literals, names and arms -/

/-- The text that a literal denotes. -/
def denoted (literal : String) : Eval String :=
  match unquote? false literal.toList with
  | some (text, []) => .ok (String.ofList text)
  | _ => .error .stuck

section Lookup

variable {α : Type}

/-- What a name refers to, provided that exactly one thing is declared under it. -/
def sole (nameOf : α → String) (name : String) (declared : List α) : Eval α :=
  match declared.filter (nameOf · == name) with
  | [only] => .ok only
  | _ => .error .stuck

/-- The first arm whose pattern denotes the text. -/
def firstArm (patternOf : α → String) (text : String) : List α → Eval (Option α)
  | [] => return none
  | arm :: arms => do
    let pattern ← denoted (patternOf arm)
    if pattern = text then return some arm
    else firstArm patternOf text arms

end Lookup

/-! ## The helpers -/

def slotChar (slots : Filling) (key : String) : Val :=
  match slots key with
  | none => .ok (.option none)
  | some raw =>
    match raw.toList with
    | [c] => .ok (.option (some (.char c)))
    | _ => .err (.invalidChar key raw)

def slotInteger (slots : Filling) (key : String) : Val :=
  match slots key with
  | none => .ok (.option none)
  | some raw =>
    match Text.word? raw with
    | some value => .ok (.option (some (.integer value)))
    | none => .err (.invalidInteger key raw)

def slotElement (slots : Filling) (key slot : String) (parse : String → Eval (Option Datum)) :
    Eval Val :=
  match slots key with
  | none => return .ok (.option none)
  | some raw => do
    match ← parse raw with
    | some datum => return .ok (.option (some datum))
    | none => return .err (.invalidElement slot raw key)

def required (key : String) : Val → Eval Val
  | .option (some datum) => return .ok (.plain datum)
  | .option none => return .err (.missingVariable key)
  | _ => .error .stuck

/-! ## Declarations and expressions -/

namespace Source

variable (source : Source)

/-- The types that the text declares, with the slot enumerations among them. -/
def types : List (String × Option EnumDecl) :=
  ("Intent", none) :: ("DecodeError", none) ::
    source.enums.map fun decl => (decl.typeName, some decl)

/-- The slot enumeration of that name. -/
def enum (typeName : String) : Eval EnumDecl := do
  match ← sole Prod.fst typeName source.types with
  | (_, some decl) => return decl
  | (_, none) => .error .stuck

/-- The value `typeName::label`. -/
def element (typeName label : String) : Eval Datum := do
  let decl ← source.enum typeName
  let label ← sole id label decl.variants
  return .variant typeName label

/-- The function `parse` of an enumeration. -/
def parse (decl : EnumDecl) (raw : String) : Eval (Option Datum) := do
  match ← firstArm ParseArm.pattern raw decl.parseArms with
  | none => return none
  | some arm => return some (← source.element arm.typeName arm.label)

/-- The function `as_str` at `typeName::label`. -/
def asStr (typeName label : String) : Eval String := do
  let decl ← source.enum typeName
  match decl.textArms.find? fun arm => arm.typeName == typeName && arm.label == label with
  | some arm => denoted arm.text
  | none => .error .stuck

def eval (slots : Filling) : Expr → Eval Val
  | .slotChar key => return slotChar slots (← denoted key)
  | .slotInteger key => return slotInteger slots (← denoted key)
  | .slotElement key named parsing => do
    let key ← denoted key
    let slot ← denoted (← source.enum named).name
    slotElement slots key slot (source.parse (← source.enum parsing))
  | .required key value => do required (← denoted key) (← eval slots value)
  | .propagate result => do
    match ← eval slots result with
    | .ok value => return value
    | .err error => .error (.returned error)
    | _ => .error .stuck

def initialise (slots : Filling) (field : Initialiser) : Eval (String × Val) :=
  return (field.label, ← source.eval slots field.value)

/-- The value `Intent::variant` with these fields. -/
def construct (variant : String) (fields : List (String × Val)) : Eval Instance := do
  let decl ← sole VariantDecl.name variant (⟨"NotUnderstood", []⟩ :: source.variants)
  let labels := decl.fields.map Prod.fst
  if labels = fields.map Prod.fst ∧ labels.Nodup then return ⟨variant, fields⟩
  else .error .stuck

/-- The function `decode`. -/
def decode (intent : String) (understood : Bool) (slots : Filling) : Eval Instance := do
  if !understood then source.construct "NotUnderstood" []
  else
    match ← firstArm DecodeArm.pattern intent source.arms with
    | none => .error (.returned (.unknownIntent intent))
    | some arm => source.construct arm.variant (← arm.fields.mapM (source.initialise slots))

end Source

/-! ## What looking up finds -/

theorem denoted_literal (text : String) : denoted (literal text) = .ok text := by
  have read := unquote?_quoteChars false text.toList []
  rw [List.append_nil] at read
  simp [denoted, literal, quote, read]

section Lookup

variable {α β : Type} {nameOf : α → String} {declared : List α} {item : α}

theorem sole_eq_ok (apart : (declared.map nameOf).Nodup) (member : item ∈ declared) :
    sole nameOf (nameOf item) declared = .ok item := by
  rw [sole, filter_name_eq apart member]

/-- Arms made of literals are found by the texts of the literals. -/
theorem firstArm_map (patternOf : β → String) (arm : α → β) (keyOf : α → String)
    (patterns : ∀ item, patternOf (arm item) = literal (keyOf item)) (text : String)
    (items : List α) :
    firstArm patternOf text (items.map arm) = .ok ((items.find? (keyOf · == text)).map arm) := by
  induction items with
  | nil => rfl
  | cons item items ih =>
      rw [List.map_cons, firstArm, patterns, denoted_literal]
      by_cases here : keyOf item = text
      · simp [here]
      · simp [here, ih]

end Lookup

theorem Source.labels_of_initialise {source : Source} {slots : Filling}
    {fields : List Initialiser} {made : List (String × Val)}
    (ran : fields.mapM (source.initialise slots) = .ok made) :
    made.map Prod.fst = fields.map (·.label) := by
  refine map_eq_map_of_forall₂ ((mapM_except_eq_ok.mp ran).imp ?_)
  intro field pair one
  obtain ⟨value, -, same⟩ := bind_except_eq_ok.mp one
  cases same
  rfl

end VoiceGrammar.Decoder.Rust
