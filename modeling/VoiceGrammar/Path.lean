/-
File paths as texts, and the components they consist of.

A path is its text; two texts may name the same components. Slashes separate
segments. Empty segments and segments `.` inside a path are no components; a
leading slash counts as the component `/`, a leading `.` as itself, and `..` is a
component like any other.
-/
namespace VoiceGrammar

set_option autoImplicit false

structure Path where
  text : String
  deriving DecidableEq, Repr

namespace Path

/-- The pieces between the slashes of a text, at least one. -/
def segments : List Char → List (List Char)
  | [] => [[]]
  | c :: text =>
    if c == '/' then [] :: segments text
    else
      match segments text with
      | [] => [[c]]
      | first :: later => (c :: first) :: later

/-- Whether a segment behind a slash is a component. -/
def isComponent (segment : List Char) : Bool :=
  !segment.isEmpty && segment != ['.']

def isAbsolute (path : Path) : Bool :=
  path.text.toList.head? == some '/'

def components (path : Path) : List String :=
  match segments path.text.toList with
  | [] => []
  | first :: later =>
    let start :=
      if !first.isEmpty then [String.ofList first]
      else if later.isEmpty then [] else ["/"]
    start ++ (later.filter isComponent).map String.ofList

/-- Drop what stands at the end of a list of segments without being a component. -/
def trimEnd (segments : List (List Char)) : List (List Char) :=
  (segments.reverse.dropWhile (!isComponent ·)).reverse

/-- The path without its last component; the root and the empty path have no parent. -/
def parent? (path : Path) : Option Path :=
  match segments path.text.toList with
  | [] => none
  | first :: later =>
    if (trimEnd later).isEmpty then
      if first.isEmpty then none else some ⟨""⟩
    else
      let kept := trimEnd (trimEnd later).dropLast
      if first.isEmpty && kept.isEmpty then some ⟨"/"⟩
      else some ⟨String.ofList (['/'].intercalate (first :: kept))⟩

/-- At most `count` parents, nearest first, and before them the path itself. -/
def ancestorsUpTo : Nat → Path → List Path
  | 0, path => [path]
  | count + 1, path =>
    match path.parent? with
    | none => [path]
    | some parent => path :: ancestorsUpTo count parent

/-- The path, its parent, and so on. -/
def ancestors (path : Path) : List Path :=
  ancestorsUpTo path.components.length path

/-- The last component, if it is a name. -/
def fileName? (path : Path) : Option String :=
  path.components.getLast?.filter fun last => last != "/" && last != "." && last != ".."

/-- What follows the last dot of the file name; a dot at its start does not count. -/
def extension? (path : Path) : Option String := do
  let name ← path.fileName?
  let reversed := name.toList.reverse
  match reversed.dropWhile (· != '.') with
  | _ :: _ :: _ => return String.ofList (reversed.takeWhile (· != '.')).reverse
  | _ => none

/-- The components of `root` begin those of the path. -/
def isUnder (path root : Path) : Bool :=
  root.components.isPrefixOf path.components

/-- The path as seen from `base`: an absolute path stays as it is. -/
def join (base path : Path) : Path :=
  if path.isAbsolute || base.text.isEmpty then path
  else if base.text.toList.getLast? == some '/' then ⟨base.text ++ path.text⟩
  else ⟨base.text ++ "/" ++ path.text⟩

end Path

/-- The package of an output file: the directories between the first root that contains
it and the file, joined with dots. -/
def inferPackage (out : Path) (roots : List Path) : Option String := do
  let root ← roots.find? out.isUnder
  let parent ← out.parent?
  if parent.isUnder root then
    match parent.components.drop root.components.length with
    | [] => none
    | names => return ".".intercalate names
  else none

end VoiceGrammar
