/-
The outline of a YAML document.

The document and its context are mappings, phrase and element lists are sequences, and
list items are scalars, which are read as the text written. A plain scalar that is empty
or spells null is absent, unless a tag says otherwise: under the null tag it has to spell
null, under any other tag it is present. Where a collection is wanted a plain scalar
without text counts as an empty one. Keys are read as text whatever they spell.

Aliases are followed where a node is read and not where it is passed over. The number of
times this may happen is bounded by the size of the document.
-/
import VoiceGrammar.Document.Outline
import VoiceGrammar.Yaml.Node

namespace VoiceGrammar.Outline

set_option autoImplicit false

open Yaml (Node Tree)

def nullTag : String := "tag:yaml.org,2002:null"

def spellsNull (text : String) : Bool :=
  text == "null" || text == "Null" || text == "NULL" || text == "~"

/-- Whether a scalar is absent; none if its tag does not allow its text. -/
def isAbsent? : Node → Option Bool
  | .scalar tag plain text =>
    if !plain then some false
    else
      match tag with
      | none => some (text.isEmpty || spellsNull text)
      | some tag =>
        if tag == nullTag then (if spellsNull text then some true else none) else some false
  | _ => some false

/-- Reading with the aliased nodes at hand and a number of aliases still to be followed. -/
abbrev YamlReader := ReaderT (List (Nat × Node)) (StateT Nat Option)

namespace YamlReader

/-- The node itself, or the node that an alias means. -/
def resolve (node : Node) : YamlReader Node :=
  match node with
  | .aliasOf number => do
    match ← get with
    | 0 => failure
    | left + 1 =>
      set left
      match (← read).lookup number with
      | some found => return found
      | none => failure
  | node => return node

/-- Read a node unless it is absent. -/
def optional {α : Type} (present : Node → YamlReader α) (node : Node) : YamlReader (Option α) := do
  let node ← resolve node
  match isAbsent? node with
  | none => failure
  | some true => return none
  | some false => return some (← present node)

def text (node : Node) : YamlReader String := do
  match ← resolve node with
  | .scalar _ _ text => return text
  | _ => failure

def items : Node → YamlReader (List Node)
  | .sequence items => return items
  | .scalar _ true "" => return []
  | _ => failure

def entries : Node → YamlReader (List (Node × Node))
  | .mapping entries => return entries
  | .scalar _ true "" => return []
  | _ => failure

/-- The text of a list item; an absent one reads as `null`. -/
def item (node : Node) : YamlReader String := do
  return (← optional text node).getD "null"

def itemTexts (node : Node) : YamlReader (List String) := do
  (← items node).mapM item

def lists (node : Node) : YamlReader NamedLists := do
  (← entries node).foldlM (fun lists (key, value) => do
    let name ← text key
    return NamedLists.set lists name (← optional itemTexts value)) []

/-- Read the fields of a record. The first function reads the field of a name, if there is
one; no field may be given twice. -/
def fields {α : Type} (field? : String → Option (Node → YamlReader α)) (node : Node) :
    YamlReader (List (String × α)) := do
  (← entries node).foldlM (fun found (key, value) => do
    let name ← text key
    match field? name with
    | none => return found
    | some read =>
      if found.any (·.1 == name) then failure
      return found ++ [(name, ← read value)]) []

def context (node : Node) : YamlReader ContextOutline := do
  let found ← fields (fun name =>
    if name == "expressions" || name == "slots" then some (optional lists) else none) node
  return ⟨(found.lookup "expressions").join, (found.lookup "slots").join⟩

def outline (node : Node) : YamlReader Outline := do
  let found ← fields (fun name => if name == "context" then some (optional context) else none) node
  return ⟨(found.lookup "context").join⟩

end YamlReader

/-- For each step of telling a document an alias may be followed this often. -/
def aliasesPerStep : Nat := 100

/-- The outline of a YAML text. -/
def ofYaml? (text : String) : Option Outline := do
  match ← Yaml.parse? text with
  | none => return ⟨none⟩
  | some tree =>
    let ((outline : Outline), _) ←
      ((YamlReader.outline tree.root).run tree.anchored).run (aliasesPerStep * tree.root.steps)
    return outline

end VoiceGrammar.Outline
