/-
YAML documents as trees.

The tokens of a text are read by the grammar of block and flow collections. A node that
is left out is an empty plain scalar. Anchors are numbered by how many different names
precede them, and an alias stands for the number that its name has where it occurs; of
the nodes with one number the one that begins last is meant.

A text holds at most one document. Without any token there is none.
-/
import VoiceGrammar.Yaml.Token

namespace VoiceGrammar.Yaml

set_option autoImplicit false

inductive Node where
  /-- A scalar with its full tag, if it has one. -/
  | scalar (tag : Option String) (plain : Bool) (text : String)
  | aliasOf (number : Nat)
  | sequence (items : List Node)
  | mapping (entries : List (Node × Node))

namespace Node

/-- The scalar of a place where nothing is written. -/
def empty : Node := .scalar none true ""

mutual

/-- How many steps it takes to tell the node: one for a scalar or an alias, two for the
bounds of a collection. -/
def steps : Node → Nat
  | scalar .. => 1
  | aliasOf _ => 1
  | sequence items => 2 + stepsOfItems items
  | mapping entries => 2 + stepsOfEntries entries

def stepsOfItems : List Node → Nat
  | [] => 0
  | item :: items => steps item + stepsOfItems items

def stepsOfEntries : List (Node × Node) → Nat
  | [] => 0
  | (key, value) :: entries => steps key + steps value + stepsOfEntries entries

end

end Node

/-- A tree and the nodes that its aliases mean. -/
structure Tree where
  root : Node
  anchored : List (Nat × Node)

/-- What remains of the tokens and what is known of tags and anchors. -/
structure Reading where
  tokens : List Token
  /-- The stems of tag handles. -/
  handles : List (String × String)
  /-- The numbers of anchor names. -/
  names : List (String × Nat)
  /-- For each number the place in the order of anchors where its node begins, newest
  first. -/
  begins : List (Nat × Nat)
  /-- The nodes by that place. -/
  nodes : List (Nat × Node)

abbrev Reader := StateT Reading Option

namespace Reader

def peek : Reader (Option Token) := do
  return (← get).tokens.head?

def skip : Reader Unit :=
  modify fun reading => { reading with tokens := reading.tokens.drop 1 }

/-- The next token is one of these. -/
def sees (tokens : List Token) : Reader Bool := do
  return (← peek).any tokens.contains

/-- The anchor and the tag before a node, in either order. -/
def properties : Reader (Option String × Option (String × String)) := do
  match ← peek with
  | some (.anchor name) =>
    skip
    match ← peek with
    | some (.tag handle suffix) =>
      skip
      return (some name, some (handle, suffix))
    | _ => return (some name, none)
  | some (.tag handle suffix) =>
    skip
    match ← peek with
    | some (.anchor name) =>
      skip
      return (some name, some (handle, suffix))
    | _ => return (none, some (handle, suffix))
  | _ => return (none, none)

/-- The full form of a tag. Its handle has to be known. -/
def fullTag : Option (String × String) → Reader (Option String)
  | none => return none
  | some (handle, suffix) => do
    if handle.isEmpty then return some suffix
    match (← get).handles.lookup handle with
    | some stem => return some (stem ++ suffix)
    | none => failure

/-- Number an anchor; the result is its place in the order of anchors. -/
def beginAnchor : Option String → Reader (Option Nat)
  | none => return none
  | some name => do
    let reading ← get
    let number := reading.names.length
    let place := reading.begins.length
    set { reading with
      names := (name, number) :: reading.names.filter (·.1 != name)
      begins := (number, place) :: reading.begins }
    return some place

def endAnchor (place : Option Nat) (node : Node) : Reader Unit :=
  match place with
  | none => return ()
  | some place => modify fun reading => { reading with nodes := (place, node) :: reading.nodes }

mutual

/-- A node. Block collections count only where `block` says so, and a sequence without
indentation of its own only where `flush` does. Every call takes one unit of fuel. -/
def node : Nat → Bool → Bool → Reader Node
  | 0, _, _ => failure
  | fuel + 1, block, flush => do
    match ← peek with
    | some (.aliasOf name) =>
      skip
      match (← get).names.lookup name with
      | some number => return .aliasOf number
      | none => failure
    | _ =>
      let (anchor, tag) ← properties
      let tag ← fullTag tag
      let place ← beginAnchor anchor
      let result ← content fuel block flush (anchor.isSome || tag.isSome) tag
      endAnchor place result
      return result

/-- A node behind its properties. Of it only the properties may be written. -/
def content : Nat → Bool → Bool → Bool → Option String → Reader Node
  | 0, _, _, _, _ => failure
  | fuel + 1, block, flush, marked, tag => do
    match ← peek with
    | some .blockEntry =>
      if flush then return .sequence (← flushEntries fuel)
      else if marked then return .scalar tag true ""
      else failure
    | some (.scalar plain text) =>
      skip
      return .scalar tag plain text
    | some .flowSequenceStart =>
      skip
      return .sequence (← flowItems fuel true)
    | some .flowMappingStart =>
      skip
      return .mapping (← flowEntries fuel true)
    | some .blockSequenceStart =>
      if block then
        skip
        return .sequence (← blockItems fuel)
      else if marked then return .scalar tag true ""
      else failure
    | some .blockMappingStart =>
      if block then
        skip
        return .mapping (← blockEntries fuel)
      else if marked then return .scalar tag true ""
      else failure
    | _ => if marked then return .scalar tag true "" else failure

/-- A node, or nothing if one of these tokens follows. -/
def nodeUnless : Nat → List Token → Bool → Bool → Reader Node
  | 0, _, _, _ => failure
  | fuel + 1, tokens, block, flush => do
    if ← sees tokens then return .empty else node fuel block flush

def blockItems : Nat → Reader (List Node)
  | 0 => failure
  | fuel + 1 => do
    match ← peek with
    | some .blockEntry =>
      skip
      let item ← nodeUnless fuel [.blockEntry, .blockEnd] true false
      return item :: (← blockItems fuel)
    | some .blockEnd =>
      skip
      return []
    | _ => failure

/-- The entries of a sequence that is not indented; it ends where no entry follows. -/
def flushEntries : Nat → Reader (List Node)
  | 0 => failure
  | fuel + 1 => do
    match ← peek with
    | some .blockEntry =>
      skip
      let item ← nodeUnless fuel [.blockEntry, .key, .value, .blockEnd] true false
      return item :: (← flushEntries fuel)
    | _ => return []

def blockEntries : Nat → Reader (List (Node × Node))
  | 0 => failure
  | fuel + 1 => do
    match ← peek with
    | some .key =>
      skip
      let key ← nodeUnless fuel [.key, .value, .blockEnd] true true
      let value ← valueUnless fuel [.key, .value, .blockEnd] true
      return (key, value) :: (← blockEntries fuel)
    | some .blockEnd =>
      skip
      return []
    | _ => failure

/-- The value behind a colon; nothing if there is no colon or one of these tokens follows
it. -/
def valueUnless : Nat → List Token → Bool → Reader Node
  | 0, _, _ => failure
  | fuel + 1, tokens, block => do
    if ← sees [.value] then
      skip
      nodeUnless fuel tokens block block
    else return .empty

def flowItems : Nat → Bool → Reader (List Node)
  | 0, _ => failure
  | fuel + 1, first => do
    if ← sees [.flowSequenceEnd] then
      skip
      return []
    if !first then
      if ← sees [.flowEntry] then skip else failure
    match ← peek with
    | some .key =>
      skip
      let key ← pairKey fuel
      let value ← valueUnless fuel [.flowEntry, .flowSequenceEnd] false
      return .mapping [(key, value)] :: (← flowItems fuel false)
    | some .flowSequenceEnd =>
      skip
      return []
    | _ =>
      let item ← node fuel false false
      return item :: (← flowItems fuel false)

/-- The key of a mapping that is one item of a flow sequence. Where it is left out the
token behind it is passed over. -/
def pairKey : Nat → Reader Node
  | 0 => failure
  | fuel + 1 => do
    if ← sees [.value, .flowEntry, .flowSequenceEnd] then
      skip
      return .empty
    else node fuel false false

def flowEntries : Nat → Bool → Reader (List (Node × Node))
  | 0, _ => failure
  | fuel + 1, first => do
    if ← sees [.flowMappingEnd] then
      skip
      return []
    if !first then
      if ← sees [.flowEntry] then skip else failure
    match ← peek with
    | some .key =>
      skip
      let key ← nodeUnless fuel [.value, .flowEntry, .flowMappingEnd] false false
      let value ← valueUnless fuel [.flowEntry, .flowMappingEnd] false
      return (key, value) :: (← flowEntries fuel false)
    | some .flowMappingEnd =>
      skip
      return []
    | _ =>
      let key ← node fuel false false
      return (key, .empty) :: (← flowEntries fuel false)

end

/-- Handles that are always known; directives may give them other stems. -/
def defaultHandles : List (String × String) :=
  [("!", "!"), ("!!", "tag:yaml.org,2002:")]

/-- The directives before a document: at most one version, 1.1 or 1.2, and at most one stem
for a handle. The result says whether there were any. -/
def directives : Nat → Bool → Bool → Reader Bool
  | 0, _, _ => failure
  | fuel + 1, versioned, found => do
    match ← peek with
    | some (.versionDirective major minor) =>
      if versioned || major != 1 || (minor != 1 && minor != 2) then failure
      skip
      directives fuel true true
    | some (.tagDirective handle stem) =>
      let reading ← get
      if reading.handles.any (·.1 == handle) then failure
      set { reading with handles := reading.handles ++ [(handle, stem)] }
      skip
      directives fuel versioned true
    | _ => return found

/-- Pass over tokens that end the document. -/
def documentEnds (reading : Reading) : Reading :=
  { reading with tokens := reading.tokens.dropWhile (· == .documentEnd) }

/-- The only document of the tokens, if there is one. -/
def document (fuel : Nat) : Reader (Option Node) := do
  if (← peek).isNone then return none
  let found ← directives fuel false false
  modify fun reading => { reading with handles := reading.handles ++ defaultHandles }
  let explicit ← sees [.documentStart]
  if found && !explicit then failure
  let root ←
    if explicit then do
      skip
      match ← peek with
      | none => pure Node.empty
      | some (.versionDirective ..) => pure Node.empty
      | some (.tagDirective ..) => pure Node.empty
      | some .documentStart => pure Node.empty
      | some .documentEnd => pure Node.empty
      | some _ => node fuel true false
    else node fuel true false
  modify documentEnds
  if (← peek).isSome then failure
  return some root

end Reader

/-- The nodes that aliases mean, by their numbers. -/
def Reading.anchored (reading : Reading) : List (Nat × Node) :=
  reading.begins.filterMap fun (number, place) =>
    (reading.nodes.lookup place).map fun node => (number, node)

/-- The document that a text describes, or that it describes none. -/
def parse? (text : String) : Option (Option Tree) := do
  let tokens ← Token.ofText? text
  let fuel := 8 * tokens.length + 16
  let (root, reading) ← (Reader.document fuel).run ⟨tokens, [], [], [], []⟩
  return root.map fun root => ⟨root, reading.anchored⟩

end VoiceGrammar.Yaml
