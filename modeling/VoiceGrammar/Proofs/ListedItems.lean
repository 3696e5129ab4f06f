/-
# Where the lists of a grammar stand in its document

`Json.Node.list?` finds the items that a JSON document gives under a name: those of the last list
that is given under it. A grammar that has been read has its lists under the same names, and each
text in them is read from the item at the same position (`Grammar.lists_of_parse`). All these items
are written in the text of the document (`Json.Node.writtenWithin_of_list?`).
-/
import VoiceGrammar.Proofs.JsonSpelling
import VoiceGrammar.Proofs.ParsedGrammars

namespace VoiceGrammar

set_option autoImplicit false

/-- The map in a grammar. -/
def ContextMap.inGrammar : ContextMap → Grammar → List (String × List String)
  | expressions => Grammar.expressions
  | slots => Grammar.slots

namespace Json.Node

/-- The value under a key of an object, the last one if there are several. -/
def lastMember? (name : String) : Node → Option Node
  | .object members => (members.reverse.find? (·.1 == some name)).map (·.2)
  | _ => none

def arrayItems? : Node → Option (List Node)
  | .array items => some items
  | _ => none

/-- The items that the document gives under a name of a map. -/
def list? (map : ContextMap) (name : String) (root : Node) : Option (List Node) :=
  ((root.map? map).bind (lastMember? name)).bind arrayItems?

theorem mem_children_of_field? {names : List String} {name : String} {node child : Node}
    (found : node.field? names name = some child) : child ∈ node.children := by
  cases node with
  | object members =>
      obtain ⟨entry, named, rfl⟩ := Option.map_eq_some_iff.mp found
      exact List.mem_map_of_mem (List.mem_of_find?_eq_some named)
  | array items => exact List.mem_of_getElem? found
  | null => cases found
  | bool value => cases found
  | number literal => cases found
  | string text => cases found

theorem mem_children_of_lastMember? {name : String} {node child : Node}
    (found : node.lastMember? name = some child) : child ∈ node.children := by
  cases node with
  | object members =>
      obtain ⟨entry, named, rfl⟩ := Option.map_eq_some_iff.mp found
      exact List.mem_map_of_mem (List.mem_reverse.mp (List.mem_of_find?_eq_some named))
  | array items => cases found
  | null => cases found
  | bool value => cases found
  | number literal => cases found
  | string text => cases found

/-- Every item of a list is written in the document. -/
theorem writtenWithin_of_list? {map : ContextMap} {name : String} {root item : Node}
    {items : List Node} {chars : List Char} (written : root.WrittenApart chars)
    (listed : root.list? map name = some items) (member : item ∈ items) :
    item.WrittenWithin chars := by
  obtain ⟨value, found, listed⟩ := Option.bind_eq_some_iff.mp listed
  obtain ⟨lists, told, named⟩ := Option.bind_eq_some_iff.mp found
  obtain ⟨context, given, told⟩ := Option.bind_eq_some_iff.mp told
  have inContext := written.within.child (mem_children_of_field? given)
  have inLists := inContext.child (mem_children_of_field? told)
  have inValue := inLists.child (mem_children_of_lastMember? named)
  unfold arrayItems? at listed
  split at listed
  · cases listed
    exact inValue.child member
  · cases listed

end Json.Node

/-! ## The lists under the names -/

namespace NamedLists

theorem lookup_map_set (lists : NamedLists) (name other : String) (items : Option (List String)) :
    (lists.map fun entry => if entry.1 == name then (name, items) else entry).lookup other =
      (lists.lookup other).map fun old => if other = name then items else old := by
  induction lists with
  | nil => rfl
  | cons entry lists ih =>
      obtain ⟨key, old⟩ := entry
      rw [List.map_cons]
      by_cases here : other = key
      · subst here
        by_cases same : other = name <;> simp [same]
      · have apart : (other == key) = false := by simpa using here
        by_cases same : key = name
        · subst same
          simpa [List.lookup_cons, apart] using ih
        · simpa [List.lookup_cons, apart, same] using ih

theorem lookup_set (lists : NamedLists) (name other : String) (items : Option (List String)) :
    (lists.set name items).lookup other = if other = name then some items else lists.lookup other := by
  unfold set
  split
  · rename_i known
    rw [lookup_map_set]
    split
    · rename_i same
      have there : lists.lookup other ≠ none := by
        rw [ne_eq, lookup_eq_none_iff_notMem, not_not, same]
        simpa using known
      obtain ⟨old, found⟩ := Option.ne_none_iff_exists'.mp there
      rw [found, Option.map_some]
    · exact Option.map_id'
  · rename_i unknown
    have absent : lists.lookup name = none := by
      rw [lookup_eq_none_iff_notMem]
      simpa using unknown
    rw [List.lookup_append]
    split
    · rename_i same
      simp [same, absent]
    · rename_i apart
      have differs : (other == name) = false := by simpa using apart
      simp [List.lookup_cons, differs]

end NamedLists

namespace Outline

open Json (Node)

theorem jsonItems?_eq_some {node : Node} {texts : List String} (read : jsonItems? node = some texts) :
    ∃ items, node.arrayItems? = some items ∧
      List.Forall₂ (fun item text => jsonItem? item = some text) items texts := by
  unfold jsonItems? at read
  split at read
  · exact ⟨_, rfl, mapM_option_eq_some.mp read⟩
  · cases read

theorem jsonLists?_lookup {node : Node} {lists : NamedLists} (read : jsonLists? node = some lists)
    (name : String) :
    Option.Rel (fun value items => optional? jsonItems? (some value) = some items)
      (node.lastMember? name) (lists.lookup name) := by
  unfold jsonLists? at read
  split at read
  · rename_i members
    refine foldlM_option_invariant
      (fun (before : List (Option String × Node)) (lists : NamedLists) =>
        Option.Rel (fun value items => optional? jsonItems? (some value) = some items)
          (Node.lastMember? name (.object before)) (lists.lookup name)) ?_ .none read
    rintro before ⟨key, value⟩ lists next related step
    obtain ⟨text, rfl, rest⟩ := Option.bind_eq_some_iff.mp step
    obtain ⟨items, given, same⟩ := Option.bind_eq_some_iff.mp rest
    cases same
    rw [NamedLists.lookup_set]
    simp only [Node.lastMember?, List.reverse_append, List.reverse_singleton,
      List.singleton_append] at related ⊢
    by_cases here : text = name
    · rw [if_pos here.symm, List.find?_cons_of_pos (by simpa using here)]
      exact .some given
    · rw [if_neg (Ne.symm here), List.find?_cons_of_neg (by simpa using here)]
      exact related
  · cases read

theorem ofJson?_lookup {root : Node} {outline : Outline} (read : ofJson? root = some outline)
    (map : ContextMap) (name : String) :
    Option.Rel (fun value items => optional? jsonItems? (some value) = some items)
      ((root.map? map).bind (Node.lastMember? name)) ((map.inOutline outline).lookup name) := by
  rcases inOutline_of_ofJson? read map with ⟨empty, none | null⟩ | ⟨lists, found, told⟩
  · rw [empty, none]
    exact .none
  · rw [empty, null]
    exact .none
  · rw [found]
    exact jsonLists?_lookup told name

theorem lookup_given (lists : NamedLists) (name : String) :
    (given lists).lookup name = (lists.lookup name).map fun items => items.getD [] := by
  induction lists with
  | nil => rfl
  | cons entry lists ih =>
      obtain ⟨key, items⟩ := entry
      rw [given, List.map_cons, List.lookup_cons, List.lookup_cons]
      cases name == key with
      | true => rfl
      | false => exact ih

end Outline

namespace Grammar

variable {text : String} {grammar : Grammar}

theorem names_nodup_of_parse {format : Format} (parsed : parse text format = .ok grammar)
    (map : ContextMap) : ((map.inGrammar grammar).map Prod.fst).Nodup := by
  obtain ⟨expressions, slots⟩ := names_of_parse parsed
  have nodup : ∀ mentions : List String, (firsts id mentions).Nodup := by
    intro mentions
    simpa using nodup_map_firsts id mentions
  cases map with
  | expressions => exact expressions ▸ nodup _
  | slots => exact slots ▸ nodup _

/-- **The lists of a grammar are those of its document, read item by item.** -/
theorem lists_of_parse (parsed : parse text .json = .ok grammar) :
    ∃ root, Json.Node.parse? text = some root ∧ ∀ map name,
      Option.Rel (List.Forall₂ fun item read => Outline.jsonItem? item = some read)
        (root.list? map name) ((map.inGrammar grammar).lookup name) := by
  obtain ⟨outline, read, made⟩ := exists_outline_of_parse parsed
  obtain ⟨root, parsed, read⟩ := Option.bind_eq_some_iff.mp read
  refine ⟨root, parsed, fun map name => ?_⟩
  have lists : map.inGrammar grammar = Outline.given (map.inOutline outline) := by
    obtain ⟨-, slots, expressions⟩ := Outline.toGrammar_eq_ok made
    cases map with
    | expressions => exact expressions
    | slots => exact slots
  have filled : ∀ declared ∈ map.inGrammar grammar, declared.2 ≠ [] := by
    obtain ⟨-, expressions, slots⟩ := Outline.complete_of_toGrammar made
    cases map with
    | expressions => exact expressions
    | slots => exact slots
  have present : ∀ items, (map.inOutline outline).lookup name = some items → items.getD [] ≠ [] := by
    intro items named
    obtain ⟨before, after, listed, -⟩ := List.lookup_eq_some_iff.mp named
    refine filled (name, items.getD []) ?_
    rw [lists, listed]
    simp [Outline.given]
  have related := Outline.ofJson?_lookup read map name
  rw [lists, Outline.lookup_given, Json.Node.list?]
  generalize (map.inOutline outline).lookup name = items? at related present ⊢
  generalize (root.map? map).bind (Json.Node.lastMember? name) = value? at related ⊢
  cases related with
  | none => exact .none
  | @some value items given =>
      rcases Outline.optional?_eq_some given with ⟨rfl, -⟩ | ⟨node, texts, same, told, rfl⟩
      · exact absurd rfl (present none rfl)
      · cases same
        obtain ⟨nodes, array, each⟩ := Outline.jsonItems?_eq_some told
        rw [Option.bind_some, array]
        exact .some each

end Grammar

end VoiceGrammar
