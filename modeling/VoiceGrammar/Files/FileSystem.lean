/-
A file system as a value.

Directories and files lie at locations, which are lists of names from the root.
A path is followed segment by segment from the root or from the working directory;
everything on the way has to be a directory. A slash at the end of a path asks for a
directory, except when a directory is being created; no file is written to such a path,
whatever its last name.
-/
import VoiceGrammar.Files.Operations

namespace VoiceGrammar

set_option autoImplicit false

/-- Names from the root. -/
abbrev Location := List String

inductive FileEntry where
  | directory
  | file (content : ByteArray)

instance : DecidableEq FileEntry
  | .directory, .directory => .isTrue rfl
  | .file a, .file b =>
    match ByteArray.decEq a b with
    | .isTrue same => .isTrue (same ▸ rfl)
    | .isFalse differ => .isFalse fun same => differ (FileEntry.file.inj same)
  | .directory, .file _ => .isFalse nofun
  | .file _, .directory => .isFalse nofun

structure FileSystem where
  workingDirectory : Location
  entries : List (Location × FileEntry)
  deriving DecidableEq

namespace FileSystem

/-- Names are limited to 255 bytes, paths to 4095. -/
def maxNameSize : Nat := 255

def maxPathSize : Nat := 4095

/-- What lies at a location; the root is a directory. -/
def entry? (fs : FileSystem) (location : Location) : Option FileEntry :=
  if location.isEmpty then some .directory else fs.entries.lookup location

/-- Put an entry at a location, in place of what is there. -/
def insert (fs : FileSystem) (location : Location) (entry : FileEntry) : FileSystem :=
  { fs with entries := (fs.entries.filter (·.1 != location)) ++ [(location, entry)] }

/-- Nothing but the working directory and its ancestors. -/
def withWorkingDirectory (location : Location) : FileSystem where
  workingDirectory := location
  entries := (List.range location.length).map fun i => (location.take (i + 1), .directory)

/-- Make sure that a location can be entered. -/
def enter (fs : FileSystem) (location : Location) : Except IoError Unit :=
  match fs.entry? location with
  | some .directory => .ok ()
  | some (.file _) => .error .notADirectory
  | none => .error .notFound

/-- Follow segments from a location. The last one need not exist. -/
def follow (fs : FileSystem) : Location → List String → Except IoError Location
  | here, [] => .ok here
  | here, segment :: later => do
    fs.enter here
    if segment == "." then fs.follow here later
    else if segment == ".." then fs.follow here.dropLast later
    else if segment.utf8ByteSize > maxNameSize then .error .nameTooLong
    else fs.follow (here ++ [segment]) later

/-- A path taken apart: where to start, the segments to follow, and whether a slash ends
it. -/
structure Route where
  start : Location
  segments : List String
  endsInSlash : Bool

/-- Take a path apart. Some texts name no path at all. -/
def route (fs : FileSystem) (path : Path) : Except IoError Route :=
  if path.text.toList.contains '\x00' then .error .nulInName
  else if path.text.isEmpty then .error .notFound
  else if path.text.utf8ByteSize > maxPathSize then .error .nameTooLong
  else .ok {
    start := if path.isAbsolute then [] else fs.workingDirectory
    segments := ((Path.segments path.text.toList).filter (!·.isEmpty)).map String.ofList
    endsInSlash := path.text.toList.getLast? == some '/' }

/-- The existing entry that a path names. -/
def find (fs : FileSystem) (path : Path) : Except IoError FileEntry := do
  let route ← fs.route path
  let segments := if route.endsInSlash then route.segments ++ ["."] else route.segments
  let location ← fs.follow route.start segments
  match fs.entry? location with
  | some entry => return entry
  | none => throw .notFound

def isDirectory (fs : FileSystem) (path : Path) : Bool :=
  match fs.find path with
  | .ok .directory => true
  | _ => false

def isFile (fs : FileSystem) (path : Path) : Bool :=
  match fs.find path with
  | .ok (.file _) => true
  | _ => false

def read (fs : FileSystem) (path : Path) : Except IoError ByteArray := do
  match ← fs.find path with
  | .file content => return content
  | .directory => throw .isADirectory

/-- The place where a new entry of that path goes: none if the path ends in `.` or `..` or
has no segment. The directory around it is there. -/
def place (fs : FileSystem) (path : Path) : Except IoError (Option Location × Route) := do
  let route ← fs.route path
  let around ← fs.follow route.start route.segments.dropLast
  fs.enter around
  match route.segments.getLast? with
  | none => return (none, route)
  | some name =>
    if name == "." || name == ".." then return (none, route)
    else return (some (around ++ [name]), route)

/-- What lies at a place; its name must not be too long. -/
def occupant (fs : FileSystem) (location : Location) : Except IoError (Option FileEntry) :=
  if location.getLast?.any (·.utf8ByteSize > maxNameSize) then .error .nameTooLong
  else .ok (fs.entry? location)

def createDirectory (fs : FileSystem) (path : Path) : Except IoError FileSystem := do
  match ← fs.place path with
  | (none, _) => throw .alreadyExists
  | (some location, _) =>
    match ← fs.occupant location with
    | some _ => throw .alreadyExists
    | none => return fs.insert location .directory

def write (fs : FileSystem) (path : Path) (content : ByteArray) : Except IoError FileSystem := do
  match ← fs.place path with
  | (none, _) => throw .isADirectory
  | (some location, route) =>
    if route.endsInSlash then throw .isADirectory
    match ← fs.occupant location with
    | some .directory => throw .isADirectory
    | _ => return fs.insert location (.file content)

/-- Let an operation replace the file system, unless it fails. -/
def update (operation : FileSystem → Except IoError FileSystem) :
    StateM FileSystem (Except IoError Unit) :=
  fun fs =>
    match operation fs with
    | .ok changed => (.ok (), changed)
    | .error error => (.error error, fs)

instance : Files (StateM FileSystem) where
  isDirectory path := fun fs => (fs.isDirectory path, fs)
  isFile path := fun fs => (fs.isFile path, fs)
  read path := fun fs => (fs.read path, fs)
  createDirectory path := update (·.createDirectory path)
  write path content := update (·.write path content)

/-- The regular files below the working directory, with their names from there. -/
def regularFiles (fs : FileSystem) : List (Location × ByteArray) :=
  fs.entries.filterMap fun (location, entry) =>
    match entry with
    | .directory => none
    | .file content =>
      if fs.workingDirectory.isPrefixOf location then
        some (location.drop fs.workingDirectory.length, content)
      else none

end FileSystem

end VoiceGrammar
