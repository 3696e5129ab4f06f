/-
# The names in a document, in the order of their first mention

A document mentions intents and slots as the keys of two maps in its tree, and a key may be
written more than once. `Format.mentions` lists the keys of such a map as they are written,
for trees of either format; it knows nothing of how the lists under the keys are read, how
often an alias may be followed or what becomes of a repeated key.

Reading a document gives every mentioned name once, where it is first mentioned
(`Format.names_of_outline?`). One step of a loop keeps this (`NamedLists.names_set_of_firsts`);
the rest is about finding the field of a record, which is done in two ways.
-/
import VoiceGrammar.Document
import VoiceGrammar.Proofs.IntentVariables

namespace VoiceGrammar

set_option autoImplicit false

/-! ## Names with their lists -/

namespace NamedLists

variable {lists : NamedLists}

theorem names_set (name : String) (items : Option (List String)) :
    (lists.set name items).map Prod.fst =
      lists.map Prod.fst ++ if name ∈ lists.map Prod.fst then [] else [name] := by
  have listed : lists.any (·.1 == name) = true ↔ name ∈ lists.map Prod.fst := by simp
  unfold set
  by_cases known : name ∈ lists.map Prod.fst
  · rw [if_pos (listed.mpr known), if_pos known, List.append_nil, List.map_map]
    apply List.map_congr_left
    intro entry _
    by_cases same : entry.1 = name <;> simp [same]
  · rw [if_neg (mt listed.mp known), if_neg known, List.map_append]
    rfl

/-- A name is added if it has not been mentioned before. -/
theorem names_set_of_firsts {mentioned : List String}
    (names : lists.map Prod.fst = firsts id mentioned) (name : String)
    (items : Option (List String)) :
    (lists.set name items).map Prod.fst = firsts id (mentioned ++ [name]) := by
  have known : name ∈ firsts id mentioned ↔ name ∈ mentioned := by
    simpa using mem_map_firsts id mentioned name
  rw [names_set, names, firsts_concat]
  simp [known]

end NamedLists

/-- The two maps of a context. -/
inductive ContextMap where
  | expressions
  | slots

namespace ContextMap

def name : ContextMap → String
  | expressions => "expressions"
  | slots => "slots"

/-- The names of both, in order. -/
def names : List String := [name expressions, name slots]

/-- The map in the outline of a context, unless it is absent. -/
def inContext : ContextMap → ContextOutline → Option NamedLists
  | expressions => ContextOutline.expressions
  | slots => ContextOutline.slots

/-- The map in the outline of a document; an absent one has no names. -/
def inOutline (map : ContextMap) (outline : Outline) : NamedLists :=
  (outline.context.bind map.inContext).getD []

end ContextMap

/-! ## JSON -/

namespace Json.Node

/-- The value of a field of a record, whose fields have these names. An array gives them in
order. -/
def field? (names : List String) (name : String) : Node → Option Node
  | .object members => (members.find? (·.1 == some name)).map (·.2)
  | .array items => items[names.idxOf name]?
  | _ => none

/-- The keys of an object, as they are written. -/
def keys : Node → List String
  | .object members => members.filterMap (·.1)
  | _ => []

/-- A map of the context. -/
def map? (map : ContextMap) (root : Node) : Option Node :=
  (root.field? ["context"] "context").bind (field? ContextMap.names map.name)

/-- The names that a map of the context mentions. -/
def mentions (map : ContextMap) (root : Node) : List String :=
  let context := root.field? ["context"] "context"
  ((context.bind (field? ContextMap.names map.name)).map keys).getD []

end Json.Node

namespace Outline

open Json (Node)

theorem membersNamed?_eq_some {name : String} {members : List (Option String × Node)}
    {found : List Node} (read : membersNamed? name members = some found) :
    found = (members.filter (·.1 == some name)).map (·.2) := by
  induction members generalizing found with
  | nil =>
      cases read
      rfl
  | cons entry members ih =>
      obtain ⟨key, value⟩ := entry
      rw [membersNamed?, List.foldrM_cons] at read
      obtain ⟨later, rest, read⟩ := Option.bind_eq_some_iff.mp read
      obtain ⟨text, rfl, read⟩ := Option.bind_eq_some_iff.mp read
      cases read
      rw [ih rest]
      by_cases same : text = name <;> simp [same]

theorem atMostOne?_eq_some {nodes : List Node} {field : Option Node}
    (read : atMostOne? nodes = some field) : field = nodes.head? := by
  match nodes, read with
  | [], rfl => rfl
  | [node], rfl => rfl

theorem jsonFields?_eq_some {names : List String} (distinct : names.Nodup) {node : Node}
    {fields : List (Option Node)} (read : jsonFields? names node = some fields) :
    fields = names.map fun name => node.field? names name := by
  unfold jsonFields? at read
  split at read
  · rename_i members
    have each := mapM_option_eq_some.mp read
    rw [← List.map_id fields]
    refine map_eq_map_of_forall₂ (each.imp ?_)
    intro name field one
    obtain ⟨found, named, one⟩ := Option.bind_eq_some_iff.mp one
    rw [id, atMostOne?_eq_some one, membersNamed?_eq_some named, List.head?_map, List.head?_filter]
    rfl
  · rename_i items
    split at read
    · rename_i fits
      cases read
      apply List.ext_getElem
      · simp only [List.length_append, List.length_map, List.length_replicate]
        omega
      · intro position _ within
        rw [List.length_map] at within
        simp only [List.getElem_map, Json.Node.field?, distinct.idxOf_getElem position within]
        by_cases given : position < items.length
        · rw [List.getElem_append_left (by simpa using given), List.getElem_map,
            List.getElem?_eq_getElem given]
        · rw [List.getElem_append_right (by simpa using given), List.getElem_replicate,
            List.getElem?_eq_none (by omega)]
    · cases read
  · cases read

/-- A field that may be absent or null is read if it is neither. -/
theorem optional?_eq_some {α : Type} {present : Node → Option α} {field : Option Node}
    {result : Option α} (read : optional? present field = some result) :
    (result = none ∧ (field = none ∨ field = some .null)) ∨
      ∃ node value, field = some node ∧ present node = some value ∧ result = some value := by
  unfold optional? at read
  split at read
  · cases read
    exact .inl ⟨rfl, .inl rfl⟩
  · cases read
    exact .inl ⟨rfl, .inr rfl⟩
  · rename_i node _
    obtain ⟨value, found, rfl⟩ := Option.map_eq_some_iff.mp read
    exact .inr ⟨node, value, rfl, found, rfl⟩

theorem jsonLists?_names {node : Node} {lists : NamedLists} (read : jsonLists? node = some lists) :
    lists.map Prod.fst = firsts id node.keys := by
  unfold jsonLists? at read
  split at read
  · rename_i members
    refine foldlM_option_invariant
      (fun (before : List (Option String × Node)) (lists : NamedLists) =>
        lists.map Prod.fst = firsts id (before.filterMap (·.1))) ?_ rfl read
    rintro before ⟨key, value⟩ lists next names step
    obtain ⟨name, rfl, rest⟩ := Option.bind_eq_some_iff.mp step
    obtain ⟨items, -, same⟩ := Option.bind_eq_some_iff.mp rest
    cases same
    rw [List.filterMap_append]
    exact NamedLists.names_set_of_firsts names name items
  · cases read

theorem jsonContext?_eq_some {node : Node} {context : ContextOutline}
    (read : jsonContext? node = some context) (map : ContextMap) :
    optional? jsonLists? (node.field? ContextMap.names map.name) = some (map.inContext context) := by
  obtain ⟨fields, found, read⟩ := Option.bind_eq_some_iff.mp read
  obtain rfl := jsonFields?_eq_some (by decide) found
  obtain ⟨expressions, first, read⟩ := Option.bind_eq_some_iff.mp read
  obtain ⟨slots, second, read⟩ := Option.bind_eq_some_iff.mp read
  cases read
  cases map with
  | expressions => exact first
  | slots => exact second

theorem ofJson?_eq_some {node : Node} {outline : Outline} (read : ofJson? node = some outline) :
    optional? jsonContext? (node.field? ["context"] "context") = some outline.context := by
  obtain ⟨fields, found, read⟩ := Option.bind_eq_some_iff.mp read
  obtain rfl := jsonFields?_eq_some (by decide) found
  obtain ⟨context, given, read⟩ := Option.bind_eq_some_iff.mp read
  cases read
  exact given

/-- A map of the outline is empty or has been read from the map of the document. -/
theorem inOutline_of_ofJson? {node : Node} {outline : Outline} (read : ofJson? node = some outline)
    (map : ContextMap) :
    (map.inOutline outline = [] ∧ (node.map? map = none ∨ node.map? map = some .null)) ∨
      ∃ found, node.map? map = some found ∧ jsonLists? found = some (map.inOutline outline) := by
  unfold ContextMap.inOutline Json.Node.map?
  rcases optional?_eq_some (ofJson?_eq_some read) with
    ⟨absent, none | null⟩ | ⟨context, found, given, read, present⟩
  · rw [absent, none]
    exact .inl ⟨rfl, .inl rfl⟩
  · rw [absent, null]
    exact .inl ⟨rfl, .inl rfl⟩
  · rw [present, given, Option.bind_some, Option.bind_some]
    rcases optional?_eq_some (jsonContext?_eq_some read map) with
      ⟨absent, missing⟩ | ⟨node, lists, given, read, present⟩
    · rw [absent]
      exact .inl ⟨rfl, missing⟩
    · rw [present]
      exact .inr ⟨node, given, read⟩

theorem names_of_ofJson? {node : Node} {outline : Outline} (read : ofJson? node = some outline)
    (map : ContextMap) :
    (map.inOutline outline).map Prod.fst = firsts id (node.mentions map) := by
  have mentioned : node.mentions map = ((node.map? map).map Json.Node.keys).getD [] := rfl
  rw [mentioned]
  rcases inOutline_of_ofJson? read map with ⟨empty, none | null⟩ | ⟨found, given, read⟩
  · rw [empty, none]
    rfl
  · rw [empty, null]
    rfl
  · rw [given]
    exact jsonLists?_names read

end Outline

/-! ## YAML -/

namespace Yaml

/-- The entries of a mapping. -/
def Node.entries : Node → List (Node × Node)
  | .mapping entries => entries
  | _ => []

namespace Tree

variable (tree : Tree)

/-- The node itself, or the node that an alias means. -/
def meant? : Node → Option Node
  | .aliasOf number => tree.anchored.lookup number
  | node => some node

/-- The text of a scalar. -/
def text? (node : Node) : Option String :=
  match tree.meant? node with
  | some (.scalar _ _ text) => some text
  | _ => none

/-- The first entry with this key. -/
def entry? (name : String) (node : Node) : Option (Node × Node) :=
  node.entries.find? fun entry => tree.text? entry.1 == some name

/-- The value of a field of a record. -/
def field? (name : String) (node : Node) : Option Node :=
  (tree.entry? name node).bind fun entry => tree.meant? entry.2

/-- The keys of a mapping, as they are written. -/
def keys (node : Node) : List String :=
  node.entries.filterMap fun entry => tree.text? entry.1

/-- The names that a map of the context mentions. -/
def mentions (map : ContextMap) : List String :=
  (((tree.field? "context" tree.root).bind (tree.field? map.name)).map tree.keys).getD []

end Tree

end Yaml

namespace Outline.YamlReader

open Yaml (Node Tree)

/-- The reader can give the value, however many aliases it is allowed to follow. -/
def Gives {α : Type} (tree : Tree) (reader : YamlReader α) (value : α) : Prop :=
  ∃ allowed left, (reader.run tree.anchored).run allowed = some (value, left)

variable {α β : Type} {tree : Tree} {node : Node}

theorem gives_pure {value other : α} (given : Gives tree (pure value) other) : value = other := by
  obtain ⟨allowed, left, ran⟩ := given
  cases ran
  rfl

theorem gives_bind {first : YamlReader α} {next : α → YamlReader β} {value : β}
    (given : Gives tree (first >>= next) value) :
    ∃ middle, Gives tree first middle ∧ Gives tree (next middle) value := by
  obtain ⟨allowed, left, ran⟩ := given
  rw [ReaderT.run_bind, StateT.run_bind] at ran
  obtain ⟨⟨middle, between⟩, first, second⟩ := Option.bind_eq_some_iff.mp ran
  exact ⟨middle, ⟨allowed, between, first⟩, between, left, second⟩

theorem not_gives_failure {value : α} : ¬ Gives tree (failure : YamlReader α) value := by
  rintro ⟨allowed, left, ran⟩
  cases ran

theorem gives_resolve {found : Node} (given : Gives tree (resolve node) found) :
    tree.meant? node = some found := by
  unfold resolve at given
  split at given
  · rename_i number
    obtain ⟨allowed, -, given⟩ := gives_bind given
    split at given
    · exact absurd given not_gives_failure
    · obtain ⟨-, -, given⟩ := gives_bind given
      obtain ⟨anchored, asked, given⟩ := gives_bind given
      obtain ⟨_, _, ran⟩ := asked
      cases ran
      split at given
      · rename_i target known
        cases gives_pure given
        exact known
      · exact absurd given not_gives_failure
  · rename_i other
    cases gives_pure given
    cases node with
    | aliasOf number => exact absurd rfl (other number)
    | scalar tag plain text => rfl
    | sequence items => rfl
    | mapping entries => rfl

theorem gives_text {text : String} (given : Gives tree (YamlReader.text node) text) :
    tree.text? node = some text := by
  obtain ⟨found, resolved, given⟩ := gives_bind given
  rw [Tree.text?, gives_resolve resolved]
  split at given
  · cases gives_pure given
    rfl
  · exact absurd given not_gives_failure

theorem gives_entries {entries : List (Node × Node)}
    (given : Gives tree (YamlReader.entries node) entries) : node.entries = entries := by
  unfold YamlReader.entries at given
  split at given
  · exact gives_pure given
  · exact gives_pure given
  · exact absurd given not_gives_failure

theorem entries_of_isAbsent? (absent : isAbsent? node = some true) : node.entries = [] := by
  cases node with
  | mapping entries => cases absent
  | scalar tag plain text => rfl
  | aliasOf number => rfl
  | sequence items => rfl

theorem gives_optional {present : Node → YamlReader α} {result : Option α}
    (given : Gives tree (YamlReader.optional present node) result) :
    ∃ found, tree.meant? node = some found ∧
      ((result = none ∧ found.entries = []) ∨
        ∃ value, Gives tree (present found) value ∧ result = some value) := by
  obtain ⟨found, resolved, given⟩ := gives_bind given
  refine ⟨found, gives_resolve resolved, ?_⟩
  split at given
  · exact absurd given not_gives_failure
  · rename_i absent
    exact .inl ⟨(gives_pure given).symm, entries_of_isAbsent? absent⟩
  · obtain ⟨value, read, given⟩ := gives_bind given
    exact .inr ⟨value, read, (gives_pure given).symm⟩

theorem gives_lists {lists : NamedLists} (given : Gives tree (YamlReader.lists node) lists) :
    lists.map Prod.fst = firsts id (tree.keys node) := by
  obtain ⟨entries, found, given⟩ := gives_bind given
  rw [Tree.keys, gives_entries found]
  refine foldlM_gives_invariant (fun _ => Gives tree) gives_pure gives_bind
    (fun (before : List (Node × Node)) (lists : NamedLists) =>
      lists.map Prod.fst = firsts id (before.filterMap fun entry => tree.text? entry.1)) ?_ rfl given
  rintro before ⟨key, value⟩ lists next names step
  obtain ⟨name, read, step⟩ := gives_bind step
  obtain ⟨items, -, step⟩ := gives_bind step
  cases gives_pure step
  rw [List.filterMap_append, List.filterMap_cons, gives_text read]
  exact NamedLists.names_set_of_firsts names name items

/-- What is found under the name of a field has been read from the value of that field. -/
theorem gives_fields {field? : String → Option (Node → YamlReader α)} {read : Node → YamlReader α}
    {name : String} {found : List (String × α)} (known : field? name = some read)
    (given : Gives tree (YamlReader.fields field? node) found) :
    Option.Rel (fun entry value => Gives tree (read entry.2) value) (tree.entry? name node)
      (found.lookup name) := by
  obtain ⟨entries, listed, given⟩ := gives_bind given
  rw [Tree.entry?, gives_entries listed]
  refine foldlM_gives_invariant (fun _ => Gives tree) gives_pure gives_bind
    (fun (before : List (Node × Node)) (found : List (String × α)) =>
      Option.Rel (fun entry value => Gives tree (read entry.2) value)
        (before.find? fun entry => tree.text? entry.1 == some name) (found.lookup name))
    ?_ .none given
  rintro before ⟨key, value⟩ found next related step
  obtain ⟨text, spelled, step⟩ := gives_bind step
  have spelled := gives_text spelled
  have grown : (field? text = none ∧ next = found) ∨
      ∃ readField result, field? text = some readField ∧ text ∉ found.map Prod.fst ∧
        Gives tree (readField value) result ∧ next = found ++ [(text, result)] := by
    split at step
    · rename_i unknown
      exact .inl ⟨unknown, (gives_pure step).symm⟩
    · rename_i readField field
      dsimp only at step
      split at step
      · obtain ⟨_, failed, -⟩ := gives_bind step
        exact absurd failed not_gives_failure
      · rename_i fresh
        obtain ⟨result, ran, step⟩ := gives_bind step
        exact .inr ⟨readField, result, field, by simpa using fresh, ran, (gives_pure step).symm⟩
  rw [List.find?_append]
  by_cases same : text = name
  · subst same
    rcases grown with ⟨unknown, -⟩ | ⟨readField, result, field, fresh, ran, rfl⟩
    · cases known.symm.trans unknown
    · cases known.symm.trans field
      rw [lookup_eq_none_iff_notMem.mpr fresh] at related
      generalize before.find? (fun entry => tree.text? entry.1 == some text) = earlier at related ⊢
      cases related
      rw [List.lookup_append, lookup_eq_none_iff_notMem.mpr fresh]
      simpa [spelled] using ran
  · have other : [(key, value)].find? (fun entry => tree.text? entry.1 == some name) = none := by
      simp [spelled, same]
    rw [other, Option.or_none]
    rcases grown with ⟨-, rfl⟩ | ⟨readField, result, -, -, -, rfl⟩
    · exact related
    · have apart : [(text, result)].lookup name = none := by
        simpa [lookup_eq_none_iff_notMem] using Ne.symm same
      rw [List.lookup_append, apart, Option.or_none]
      exact related

/-- The names of a map of a context. -/
theorem gives_context {context : ContextOutline}
    (given : Gives tree (YamlReader.context node) context) (map : ContextMap) :
    ((map.inContext context).getD []).map Prod.fst =
      firsts id (((tree.field? map.name node).map tree.keys).getD []) := by
  obtain ⟨found, given, made⟩ := gives_bind given
  have same : map.inContext context = (found.lookup map.name).join := by
    rw [← gives_pure made]
    cases map <;> rfl
  have field : (fun name => if name == "expressions" || name == "slots" then
      some (YamlReader.optional YamlReader.lists) else none) map.name =
      some (YamlReader.optional YamlReader.lists) := by
    cases map <;> rfl
  have related := gives_fields field given
  rw [same, Tree.field?]
  generalize tree.entry? map.name node = entry? at related ⊢
  generalize found.lookup map.name = lists? at related ⊢
  cases related with
  | none => rfl
  | @some entry lists read =>
      obtain ⟨value, meant, ⟨rfl, empty⟩ | ⟨lists, listed, rfl⟩⟩ := gives_optional read
      · simp [meant, Tree.keys, empty, firsts]
      · simpa [meant] using gives_lists listed

theorem gives_outline {outline : Outline} (given : Gives tree (YamlReader.outline tree.root) outline)
    (map : ContextMap) :
    (map.inOutline outline).map Prod.fst = firsts id (tree.mentions map) := by
  obtain ⟨found, given, made⟩ := gives_bind given
  have same : outline.context = (found.lookup "context").join := by rw [← gives_pure made]
  have field : (fun name => if name == "context" then
      some (YamlReader.optional YamlReader.context) else none) "context" =
      some (YamlReader.optional YamlReader.context) := rfl
  have related := gives_fields field given
  rw [ContextMap.inOutline, same, Tree.mentions, Tree.field?]
  generalize tree.entry? "context" tree.root = entry? at related ⊢
  generalize found.lookup "context" = context? at related ⊢
  cases related with
  | none => rfl
  | @some entry context read =>
      obtain ⟨value, meant, ⟨rfl, empty⟩ | ⟨context, told, rfl⟩⟩ := gives_optional read
      · simp [meant, Tree.field?, Tree.entry?, empty, firsts]
      · simpa [meant] using gives_context told map

end Outline.YamlReader

/-! ## Both formats -/

/-- The names that a map of the context mentions, as they are written in the text. -/
def Format.mentions (map : ContextMap) (text : String) : Format → List String
  | .yaml => ((Yaml.parse? text).join.map fun tree => tree.mentions map).getD []
  | .json => ((Json.Node.parse? text).map fun root => root.mentions map).getD []

/-- **Reading a document gives every mentioned name once, in the order of first mention.** -/
theorem Format.names_of_outline? {text : String} {format : Format} {outline : Outline}
    (read : format.outline? text = some outline) (map : ContextMap) :
    (map.inOutline outline).map Prod.fst = firsts id (format.mentions map text) := by
  cases format with
  | json =>
      obtain ⟨node, parsed, read⟩ := Option.bind_eq_some_iff.mp read
      rw [Format.mentions, parsed]
      exact Outline.names_of_ofJson? read map
  | yaml =>
      obtain ⟨tree?, parsed, read⟩ := Option.bind_eq_some_iff.mp read
      rw [Format.mentions, parsed]
      cases tree? with
      | none =>
          cases read
          rfl
      | some tree =>
          obtain ⟨⟨told, left⟩, ran, same⟩ := Option.bind_eq_some_iff.mp read
          cases same
          exact Outline.YamlReader.gives_outline ⟨_, _, ran⟩ map

end VoiceGrammar
