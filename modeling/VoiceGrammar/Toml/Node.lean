/-
TOML trees: texts, other scalars, lists and tables, and how tables grow.

A table remembers how it came about, because that decides who may add to it. Braces
make a closed table. A header makes an open one, which is filled line by line, and on
its way to it implied ones, which a later header may still open. A dotted key makes
dotted tables on its way, which further dotted keys fill and no header opens. Keys are
never set twice. Lists of tables, which headers of another kind make, have no place here:
no setting is one.
-/
import VoiceGrammar.Toml.Scalar

namespace VoiceGrammar.Toml

set_option autoImplicit false

/-- How a table came about. -/
inductive Origin where
  | braces
  | header
  | implied
  | dotted
  deriving DecidableEq, Repr

inductive Node where
  | text (value : String)
  | scalar (value : Scalar)
  | list (items : List Node)
  | table (origin : Origin) (members : List (String × Node))

namespace Node

/-- The members with one of them set in its place, or added at the end. -/
def setMember (key : String) (value : Node) : List (String × Node) → List (String × Node)
  | [] => [(key, value)]
  | (first, old) :: later =>
    if first == key then (key, value) :: later else (first, old) :: setMember key value later

/-- Change the table that a path leads to from a table. Only tables of an admitted origin
are passed, and those that are missing are made with origin `made`. -/
def within? (made : Origin) (admits : Origin → Bool) (change : Node → Option Node) :
    List String → Node → Option Node
  | [], node => change node
  | key :: path, .table origin members => do
    let child := (members.lookup key).getD (.table made [])
    match child with
    | .table below _ =>
      if admits below then
        let changed ← within? made admits change path child
        return .table origin (setMember key changed members)
      else none
    | _ => none
  | _ :: _, _ => none

/-- Change a table that headers lead to. -/
def underHeader? : (Node → Option Node) → List String → Node → Option Node :=
  within? .implied (· != .braces)

/-- Change a table that a dotted key leads to. -/
def underDots? : (Node → Option Node) → List String → Node → Option Node :=
  within? .dotted fun origin => origin == .implied || origin == .dotted

/-- Open the table of a header inside its parent. -/
def openMember? (key : String) : Node → Option Node
  | .table origin members =>
    match members.lookup key with
    | none => some (.table origin (setMember key (.table .header []) members))
    | some (.table .implied below) =>
      some (.table origin (setMember key (.table .header below) members))
    | some _ => none
  | _ => none

/-- Open the table of a header. -/
def openTable? (path : List String) (root : Node) : Option Node :=
  match path.getLast? with
  | none => none
  | some key => underHeader? (openMember? key) path.dropLast root

/-- Add a member to a table. Behind a dotted key that table is a dotted one. -/
def addMember? (dotted : Bool) (key : String) (value : Node) : Node → Option Node
  | .table origin members =>
    if (origin == .dotted) == dotted && (members.lookup key).isNone then
      some (.table origin (setMember key value members))
    else none
  | _ => none

/-- Set what a key, dotted or not, names in a table. -/
def assign? (path : List String) (value table : Node) : Option Node :=
  match path.getLast? with
  | none => none
  | some key => underDots? (addMember? (path.length > 1) key value) path.dropLast table

/-- The table that assignments between braces make. -/
def ofAssignments? (assignments : List (List String × Node)) : Option Node :=
  assignments.foldlM (fun table (path, value) => assign? path value table) (.table .braces [])

end Node

end VoiceGrammar.Toml
