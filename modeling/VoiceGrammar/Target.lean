/-
Output languages of generated decoders, and the names they give to intents.

Each language has its reserved words, a file extension, and names that every
decoder in it declares itself. In Rust the word `Self` cannot be used under any
capitalization, so it gets an underscore.
-/
import VoiceGrammar.Model
import VoiceGrammar.ReservedWords

namespace VoiceGrammar

set_option autoImplicit false

inductive Target where
  | rust
  | kotlin
  deriving DecidableEq, Repr

namespace Target

def name : Target → String
  | rust => "rust"
  | kotlin => "kotlin"

def ofName? : String → Option Target
  | "rust" => some rust
  | "kotlin" => some kotlin
  | _ => none

/-- What is said of a text that names no target. -/
def unknownMessage (name : String) : String :=
  "unknown target '" ++ name ++ "': expected 'rust' or 'kotlin'"

/-- The extension of decoder files, without the dot. -/
def extension : Target → String
  | rust => "rs"
  | kotlin => "kt"

def reserved : Target → ReservedWords
  | rust => .rust
  | kotlin => .kotlin

/-- How an escaped name is written in the target. -/
def identifier : Target → String → String
  | rust, name => if name == "Self" then "Self_" else name
  | kotlin, name => name

/-- The type that an intent becomes. -/
def intentType (target : Target) (intent : String) : String :=
  target.identifier (target.reserved.escape intent)

/-- Types that a decoder declares beside the intents. -/
def declaredTypes : Target → List String
  | rust => ["NotUnderstood"]
  | kotlin => ["NotUnderstood", "Intent", "Companion"]

end Target

/-- Why the intents of a model cannot be declared side by side. -/
inductive NameError where
  | reserved (intent typeName : String) (target : Target)
  | clash (first second typeName : String) (target : Target)
  deriving DecidableEq, Repr

def NameError.message : NameError → String
  | reserved intent typeName target =>
    "intent " ++ intent ++ " renders as " ++ typeName ++ ", which the " ++ target.name ++
      " decoder already declares"
  | clash first second typeName target =>
    "intents " ++ first ++ " and " ++ second ++ " both render as " ++ typeName ++ " in " ++
      target.name ++ " output"

namespace Model

/-- Check one intent against the intents before it, given with their types. -/
def claimType (target : Target) (taken : List (String × String)) (intent : Intent) :
    Except NameError (List (String × String)) :=
  let typeName := target.intentType intent.name
  if target.declaredTypes.contains typeName then
    .error (.reserved intent.name typeName target)
  else
    match taken.lookup typeName with
    | some first => .error (.clash first intent.name typeName target)
    | none => .ok (taken ++ [(typeName, intent.name)])

/-- Every intent gets a type of its own that the decoder does not declare itself. -/
def checkNames (model : Model) (target : Target) : Except NameError Unit :=
  (model.intents.foldlM (claimType target) []).map fun _ => ()

end Model

end VoiceGrammar
