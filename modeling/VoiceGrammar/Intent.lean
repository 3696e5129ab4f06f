/-
Building an intent from its example phrases.

The variables of an intent are those of its phrases in the order of their first
occurrence, each with the type of that occurrence. A variable is required if every
phrase has it outside all groups. Names and tags are escaped first, so two names
that differ as written may meet; within one phrase that is an error like any other
repetition, and across phrases they are one variable.
-/
import VoiceGrammar.Model
import VoiceGrammar.Phrase.Scan
import VoiceGrammar.ReservedWords

namespace VoiceGrammar.Intent

set_option autoImplicit false

/-- What an intent's phrases are read against. -/
structure Setting where
  intent : String
  slots : List Slot
  reserved : ReservedWords

/-- What has been read: the intent's variables, and the names and the required names of
the current phrase. -/
structure Draft where
  vars : List Variable
  names : List String
  required : List String

/-- Add one occurrence of `phrase`. -/
def Draft.add (setting : Setting) (phrase : String) (draft : Draft) (occurrence : Occurrence) :
    Logged PhraseError Draft :=
  let name := setting.reserved.escape occurrence.name
  if draft.names.contains name then
    .fail (.repeatedVariable phrase occurrence.name)
  else
    match ValueType.resolve? setting.slots (setting.reserved.escape occurrence.tag) with
    | none => .fail (.unknownSlotType phrase occurrence.name occurrence.tag)
    | some type =>
      let names := draft.names ++ [name]
      let required := if occurrence.optional then draft.required else draft.required ++ [name]
      match draft.vars.find? (·.name == name) with
      | none => .ok ⟨draft.vars ++ [⟨name, type, false⟩], names, required⟩
      | some first =>
        ⟨if first.type = type then [] else [.conflictingType setting.intent name phrase],
          .ok ⟨draft.vars, names, required⟩⟩

/-- Take in one part of the reading of `phrase`. -/
def Draft.read (setting : Setting) (phrase : String) (draft : Draft) :
    Scan.Signal → Logged PhraseError Draft
  | .event event => ⟨[event], .ok draft⟩
  | .occurrence occurrence => draft.add setting phrase occurrence
  | .fault error => .fail error

/-- Read one phrase on top of the variables found before it. The result holds the names
that the phrase requires. -/
def readPhrase (setting : Setting) (vars : List Variable) (phrase : String) :
    Logged PhraseError Draft :=
  (Phrase.signals phrase).foldlM (Draft.read setting phrase) ⟨vars, [], []⟩

/-- The variables of the phrases read so far and the names that all of them require;
before the first phrase there are no such names to speak of. -/
structure Progress where
  vars : List Variable
  required : Option (List String)

def Progress.read (setting : Setting) (progress : Progress) (phrase : String) :
    Logged PhraseError Progress := do
  let draft ← readPhrase setting progress.vars phrase
  return {
    vars := draft.vars
    required := match progress.required with
      | none => some draft.required
      | some names => some (names.filter draft.required.contains) }

/-- Build the intent `name` from its phrases. -/
def build (name : String) (phrases : List String) (slots : List Slot) (reserved : ReservedWords) :
    Logged PhraseError Intent := do
  let setting : Setting := ⟨name, slots, reserved⟩
  let progress ← phrases.foldlM (Progress.read setting) ⟨[], none⟩
  let required := progress.required.getD []
  let vars := progress.vars.map fun v => { v with required := required.contains v.name }
  Logged.report (.builtIntent name phrases.length vars.length required.length)
  return ⟨name, vars⟩

end VoiceGrammar.Intent
