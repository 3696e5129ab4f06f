/-
The outline of a JSON document.

The document and its context are objects, or arrays that give the fields in order. A
field occurs once at most; members under other names do not count. List items are
texts or scalars, which are read as the text they stand for.
-/
import VoiceGrammar.Document.Outline
import VoiceGrammar.Json.Node

namespace VoiceGrammar.Outline

set_option autoImplicit false

open Json (Node)

/-- The values of the member `name`, all keys being texts. -/
def membersNamed? (name : String) (members : List (Option String × Node)) : Option (List Node) :=
  members.foldrM (fun (key, value) found => do
    let key ← key
    return if key == name then value :: found else found) []

/-- The only value in the list, or that there is none. -/
def atMostOne? : List Node → Option (Option Node)
  | [] => some none
  | [node] => some (some node)
  | _ => none

/-- The fields of a record with these names, each absent or present. -/
def jsonFields? (names : List String) : Node → Option (List (Option Node))
  | .object members => names.mapM fun name => do atMostOne? (← membersNamed? name members)
  | .array items =>
    if items.length ≤ names.length then
      some (items.map some ++ List.replicate (names.length - items.length) none)
    else none
  | _ => none

/-- Read a field that may be absent or null. -/
def optional? {α : Type} (read : Node → Option α) : Option Node → Option (Option α)
  | none => some none
  | some .null => some none
  | some node => (read node).map some

def jsonItem? : Node → Option String
  | .null => some "null"
  | .bool true => some "true"
  | .bool false => some "false"
  | .number literal => literal.text?
  | .string text => text
  | .array _ => none
  | .object _ => none

def jsonItems? : Node → Option (List String)
  | .array items => items.mapM jsonItem?
  | _ => none

def jsonLists? : Node → Option NamedLists
  | .object members =>
    members.foldlM (fun lists (key, value) => do
      let name ← key
      let items ← optional? jsonItems? (some value)
      return NamedLists.set lists name items) []
  | _ => none

def jsonContext? (node : Node) : Option ContextOutline := do
  match ← jsonFields? ["expressions", "slots"] node with
  | [expressions, slots] =>
    return ⟨← optional? jsonLists? expressions, ← optional? jsonLists? slots⟩
  | _ => none

/-- The outline of a JSON tree. -/
def ofJson? (node : Node) : Option Outline := do
  match ← jsonFields? ["context"] node with
  | [context] => return ⟨← optional? jsonContext? context⟩
  | _ => none

end VoiceGrammar.Outline
