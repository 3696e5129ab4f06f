/-
# What becomes of a file system

Where a path leads (`FileSystem.locate`) depends on the working directory and on what is
a directory, so it stays the same while directories stay (`FileSystem.Keeps.locate`).
Creating a directory puts it where its path leads, if nothing is there
(`FileSystem.createDirectory_eq_ok`); writing puts a file where its path leads, unless a
directory is there (`FileSystem.write_eq_ok_iff`).

`FileSystem.Gains` says of two states that the second has further directories, each where
one of the given paths leads, and is otherwise the first. Creating a directory and the
ancestors it lacks does this and no more, whether it succeeds or fails
(`Files.createNearest_gains`). Where the directory is there already it does nothing
(`Files.createNearest_of_ready`), and where it has succeeded the directory is there.
-/
import VoiceGrammar.Files.FileSystem
import VoiceGrammar.Proofs.Outcome

namespace VoiceGrammar

set_option autoImplicit false

namespace FileSystem

/-! ## Entries -/

/-- The content of the regular file at a location. -/
def file? (fs : FileSystem) (location : Location) : Option ByteArray :=
  match fs.entry? location with
  | some (.file content) => some content
  | _ => none

/-- Taking out the entries of one location leaves those of the others to be found. -/
theorem lookup_filter_ne (entries : List (Location × FileEntry)) (location other : Location) :
    (entries.filter (·.1 != location)).lookup other =
      if other = location then none else entries.lookup other := by
  induction entries with
  | nil => simp
  | cons pair entries ih =>
      obtain ⟨place, entry⟩ := pair
      by_cases taken : place = location
      · rw [List.filter_cons_of_neg (by simp [taken]), ih, List.lookup_cons]
        by_cases here : other = location
        · rw [if_pos here, if_pos here]
        · rw [if_neg here, if_neg here, beq_eq_false_iff_ne.mpr (taken ▸ here)]
      · rw [List.filter_cons_of_pos (by simp [taken]), List.lookup_cons, List.lookup_cons, ih]
        by_cases here : other = place
        · subst here
          simp [taken]
        · rw [beq_eq_false_iff_ne.mpr here]

theorem entry?_insert_self (fs : FileSystem) {location : Location} (below : location ≠ [])
    (entry : FileEntry) : entry? (fs.insert location entry) location = some entry := by
  unfold FileSystem.entry? FileSystem.insert
  simp [below, List.lookup_append, lookup_filter_ne]

theorem entry?_insert_of_ne (fs : FileSystem) {location other : Location} (apart : other ≠ location)
    (entry : FileEntry) : entry? (fs.insert location entry) other = fs.entry? other := by
  have last : [(location, entry)].lookup other = none := by
    simp [List.lookup_cons, beq_eq_false_iff_ne.mpr apart]
  unfold FileSystem.entry? FileSystem.insert
  simp only [List.lookup_append, lookup_filter_ne, if_neg apart, last, Option.or_none]

theorem file?_insert_of_ne (fs : FileSystem) {location other : Location} (apart : other ≠ location)
    (entry : FileEntry) : (fs.insert location entry).file? other = fs.file? other := by
  unfold file?
  rw [fs.entry?_insert_of_ne apart]

/-- Of two entries put at one location the later counts. -/
theorem insert_insert (fs : FileSystem) (location : Location) (first second : FileEntry) :
    (fs.insert location first).insert location second = fs.insert location second := by
  simp [insert, List.filter_append, List.filter_filter]

/-! ## Where a path leads -/

/-- Where a path leads. What lies there is not looked at. -/
def locate (fs : FileSystem) (path : Path) : Except IoError Location := do
  let route ← fs.route path
  fs.follow route.start route.segments

/-- Everything that is a directory stays one. -/
structure Keeps (before after : FileSystem) : Prop where
  workingDirectory : after.workingDirectory = before.workingDirectory
  directory : ∀ location, before.entry? location = some .directory →
    after.entry? location = some .directory

variable {fs after : FileSystem}

theorem enter_eq_ok_iff {location : Location} :
    fs.enter location = .ok () ↔ fs.entry? location = some .directory := by
  unfold enter
  cases fs.entry? location with
  | none => simp
  | some entry => cases entry <;> simp

theorem Keeps.route (keeps : fs.Keeps after) (path : Path) : after.route path = fs.route path := by
  simp only [FileSystem.route, keeps.workingDirectory]

theorem Keeps.enter (keeps : fs.Keeps after) {location : Location}
    (entered : fs.enter location = .ok ()) : after.enter location = .ok () :=
  enter_eq_ok_iff.mpr (keeps.directory location (enter_eq_ok_iff.mp entered))

/-- The name of a location is not too long. -/
def Short (location : Location) : Prop :=
  location.getLast?.any (·.utf8ByteSize > maxNameSize) = false

/-- Where one segment leads from a directory. -/
def stride (here : Location) (segment : String) : Except IoError Location :=
  if segment == "." then .ok here
  else if segment == ".." then .ok here.dropLast
  else if segment.utf8ByteSize > maxNameSize then .error .nameTooLong
  else .ok (here ++ [segment])

theorem follow_cons (fs : FileSystem) (here : Location) (segment : String) (later : List String) :
    fs.follow here (segment :: later) =
      fs.enter here >>= fun _ => stride here segment >>= (fs.follow · later) := by
  unfold stride
  rw [FileSystem.follow]
  split
  · rfl
  · split
    · rfl
    · split <;> rfl

theorem follow_append (fs : FileSystem) (first second : List String) (here : Location) :
    fs.follow here (first ++ second) = fs.follow here first >>= (fs.follow · second) := by
  induction first generalizing here with
  | nil => rfl
  | cons segment first ih =>
      rw [List.cons_append, follow_cons, follow_cons]
      simp only [ih, bind_assoc]

theorem Keeps.follow (keeps : fs.Keeps after) {segments : List String} {here there : Location}
    (followed : fs.follow here segments = .ok there) : after.follow here segments = .ok there := by
  induction segments generalizing here with
  | nil => exact followed
  | cons segment segments ih =>
      rw [follow_cons] at followed ⊢
      obtain ⟨_, entered, further⟩ := bind_except_eq_ok.mp followed
      obtain ⟨next, strode, further⟩ := bind_except_eq_ok.mp further
      exact bind_except_eq_ok.mpr ⟨(), keeps.enter entered,
        bind_except_eq_ok.mpr ⟨next, strode, ih further⟩⟩

theorem Keeps.locate (keeps : fs.Keeps after) {path : Path} {location : Location}
    (located : fs.locate path = .ok location) : after.locate path = .ok location := by
  obtain ⟨route, routed, followed⟩ := bind_except_eq_ok.mp located
  exact bind_except_eq_ok.mpr ⟨route, (keeps.route path).trans routed, keeps.follow followed⟩

/-- A name leads from a directory to the entry of that name in it. -/
theorem stride_eq_ok_iff {here there : Location} {name : String} (plain : ¬(name = "." ∨ name = "..")) :
    stride here name = .ok there ↔ Short (here ++ [name]) ∧ here ++ [name] = there := by
  obtain ⟨notDot, notDots⟩ := not_or.mp plain
  unfold stride Short
  by_cases long : name.utf8ByteSize > maxNameSize <;> simp [notDot, notDots, long]

/-! ## What the operations do -/

theorem place_of_nil {path : Path} {route : Route} (routed : fs.route path = .ok route)
    (segments : route.segments = []) :
    fs.place path = fs.enter route.start >>= fun _ => .ok (none, route) := by
  rw [place, routed, except_ok_bind, segments]
  rfl

theorem place_of_concat {path : Path} {route : Route} {front : List String} {name : String}
    (routed : fs.route path = .ok route) (segments : route.segments = front ++ [name]) :
    fs.place path = fs.follow route.start front >>= fun around => fs.enter around >>= fun _ =>
      .ok (if name = "." ∨ name = ".." then none else some (around ++ [name]), route) := by
  rw [place, routed, except_ok_bind, segments, List.dropLast_concat, List.getLast?_concat]
  simp only [Bool.or_eq_true, beq_iff_eq]
  split <;> rfl

theorem Keeps.place (keeps : fs.Keeps after) {path : Path} {placed : Option Location × Route}
    (found : fs.place path = .ok placed) : after.place path = .ok placed := by
  unfold FileSystem.place at found ⊢
  obtain ⟨route, routed, found⟩ := bind_except_eq_ok.mp found
  obtain ⟨around, followed, found⟩ := bind_except_eq_ok.mp found
  obtain ⟨_, entered, found⟩ := bind_except_eq_ok.mp found
  rw [keeps.route, routed, except_ok_bind, keeps.follow followed, except_ok_bind,
    keeps.enter entered, except_ok_bind]
  exact found

theorem occupant_eq_ok_iff {location : Location} {found : Option FileEntry} :
    fs.occupant location = .ok found ↔ Short location ∧ fs.entry? location = found := by
  unfold occupant Short
  cases location.getLast?.any (·.utf8ByteSize > maxNameSize) <;> simp

/-- The place of a new entry is where its path leads. -/
theorem locate_of_place {path : Path} {location : Location} {route : Route}
    (placed : fs.place path = .ok (some location, route)) (short : Short location) :
    location ≠ [] ∧ fs.route path = .ok route ∧ fs.locate path = .ok location := by
  obtain ⟨route', routed, -⟩ := bind_except_eq_ok.mp placed
  rcases List.eq_nil_or_concat route'.segments with none | ⟨front, name, segments⟩
  · rw [place_of_nil routed none] at placed
    obtain ⟨_, -, wrong⟩ := bind_except_eq_ok.mp placed
    cases wrong
  · rw [List.concat_eq_append] at segments
    rw [place_of_concat routed segments] at placed
    obtain ⟨around, followed, placed⟩ := bind_except_eq_ok.mp placed
    obtain ⟨_, entered, placed⟩ := bind_except_eq_ok.mp placed
    obtain ⟨found, rfl⟩ := Prod.mk.inj (Except.ok.inj placed)
    split at found
    · cases found
    · rename_i plain
      cases found
      refine ⟨by simp, routed, ?_⟩
      have strode := (stride_eq_ok_iff plain).mpr ⟨short, rfl⟩
      rw [locate, routed, except_ok_bind, segments, follow_append, followed, except_ok_bind,
        follow_cons, entered, except_ok_bind, strode]
      rfl

/-- A directory is made where its path leads, if there is nothing. -/
theorem createDirectory_eq_ok {path : Path} (made : fs.createDirectory path = .ok after) :
    ∃ location, fs.locate path = .ok location ∧ location ≠ [] ∧ fs.entry? location = none ∧
      after = fs.insert location .directory := by
  obtain ⟨⟨found, route⟩, placed, made⟩ := bind_except_eq_ok.mp made
  cases found with
  | none => cases made
  | some location =>
      obtain ⟨found, occupied, made⟩ := bind_except_eq_ok.mp made
      obtain ⟨short, entry⟩ := occupant_eq_ok_iff.mp occupied
      cases found with
      | some entry => cases made
      | none =>
          cases made
          obtain ⟨below, -, located⟩ := locate_of_place placed short
          exact ⟨location, located, below, entry, rfl⟩

/-- A file is put at its place, unless the path ends in a slash or a directory is there. -/
theorem write_eq_ok_iff {path : Path} {content : ByteArray} :
    fs.write path content = .ok after ↔
      ∃ location route, fs.place path = .ok (some location, route) ∧ route.endsInSlash = false ∧
        Short location ∧ fs.entry? location ≠ some .directory ∧
        after = fs.insert location (.file content) := by
  unfold write
  rw [bind_except_eq_ok]
  constructor
  · rintro ⟨⟨found, route⟩, placed, written⟩
    cases found with
    | none => cases written
    | some location =>
        cases slash : route.endsInSlash with
        | true =>
            simp only [slash, if_true] at written
            obtain ⟨_, stopped, -⟩ := bind_except_eq_ok.mp written
            cases stopped
        | false =>
            simp only [slash, Bool.false_eq_true, if_false] at written
            obtain ⟨found, occupied, written⟩ := bind_except_eq_ok.mp written
            obtain ⟨short, entry⟩ := occupant_eq_ok_iff.mp occupied
            refine ⟨location, route, placed, slash, short, ?_, ?_⟩
            · rintro directory
              rw [← entry, directory] at written
              cases written
            · split at written
              · cases written
              · cases written
                rfl
  · rintro ⟨location, route, placed, slash, short, vacant, rfl⟩
    refine ⟨(some location, route), placed, ?_⟩
    simp only [slash, Bool.false_eq_true, if_false]
    refine bind_except_eq_ok.mpr ⟨_, occupant_eq_ok_iff.mpr ⟨short, rfl⟩, ?_⟩
    split
    · rename_i directory
      exact absurd directory vacant
    · rfl

theorem follow_dot (fs : FileSystem) (here : Location) :
    fs.follow here ["."] = fs.enter here >>= fun _ => .ok here := by
  rw [follow_cons]
  rfl

theorem find_eq_ok_iff {path : Path} {entry : FileEntry} :
    fs.find path = .ok entry ↔
      ∃ route location, fs.route path = .ok route ∧
        fs.follow route.start (if route.endsInSlash then route.segments ++ ["."] else route.segments) =
          .ok location ∧ fs.entry? location = some entry := by
  unfold find
  simp only [bind_except_eq_ok]
  constructor
  · rintro ⟨route, routed, location, followed, found⟩
    cases there : fs.entry? location with
    | none =>
        rw [there] at found
        cases found
    | some other =>
        rw [there] at found
        cases found
        exact ⟨route, location, routed, followed, there⟩
  · rintro ⟨route, location, routed, followed, there⟩
    refine ⟨route, routed, location, followed, ?_⟩
    rw [there]
    rfl

/-- Whether a path names a directory does not depend on a slash at its end. -/
theorem isDirectory_iff {path : Path} :
    fs.isDirectory path = true ↔
      ∃ location, fs.locate path = .ok location ∧ fs.entry? location = some .directory := by
  have found : fs.isDirectory path = true ↔ fs.find path = .ok .directory := by
    unfold isDirectory
    split
    · simp_all
    · simp_all
  rw [found, find_eq_ok_iff]
  simp only [locate, bind_except_eq_ok]
  constructor
  · rintro ⟨route, location, routed, followed, there⟩
    cases slash : route.endsInSlash with
    | false =>
        rw [slash, if_neg Bool.false_ne_true] at followed
        exact ⟨location, ⟨route, routed, followed⟩, there⟩
    | true =>
        rw [slash, if_pos rfl, follow_append] at followed
        obtain ⟨before, followed, stayed⟩ := bind_except_eq_ok.mp followed
        rw [follow_dot] at stayed
        obtain ⟨_, -, same⟩ := bind_except_eq_ok.mp stayed
        cases same
        exact ⟨location, ⟨route, routed, followed⟩, there⟩
  · rintro ⟨location, ⟨route, routed, followed⟩, there⟩
    refine ⟨route, location, routed, ?_, there⟩
    cases slash : route.endsInSlash with
    | false => rwa [if_neg Bool.false_ne_true]
    | true =>
        rw [if_pos rfl, follow_append, followed, except_ok_bind, follow_dot,
          enter_eq_ok_iff.mpr there]
        rfl

/-- A directory that is there cannot be made. -/
theorem createDirectory_of_isDirectory {path : Path} (there : fs.isDirectory path = true) :
    fs.createDirectory path = .error .alreadyExists := by
  obtain ⟨location, located, entry⟩ := isDirectory_iff.mp there
  obtain ⟨route, routed, followed⟩ := bind_except_eq_ok.mp located
  rcases List.eq_nil_or_concat route.segments with none | ⟨front, name, segments⟩
  · rw [none] at followed
    cases followed
    rw [createDirectory, place_of_nil routed none, enter_eq_ok_iff.mpr entry]
    rfl
  · rw [List.concat_eq_append] at segments
    rw [segments, follow_append] at followed
    obtain ⟨around, toAround, followed⟩ := bind_except_eq_ok.mp followed
    rw [follow_cons] at followed
    obtain ⟨_, entered, followed⟩ := bind_except_eq_ok.mp followed
    obtain ⟨next, strode, same⟩ := bind_except_eq_ok.mp followed
    cases same
    rw [createDirectory, place_of_concat routed segments, toAround, except_ok_bind, entered,
      except_ok_bind]
    by_cases dots : name = "." ∨ name = ".."
    · rw [if_pos dots]
      rfl
    · obtain ⟨short, rfl⟩ := (stride_eq_ok_iff dots).mp strode
      rw [if_neg dots, except_ok_bind]
      simp only [occupant_eq_ok_iff.mpr ⟨short, entry⟩, except_ok_bind]
      rfl

/-- Whatever is put where no directory is, the directories stay. -/
theorem keeps_insert {location : Location} (vacant : fs.entry? location ≠ some .directory)
    (entry : FileEntry) : fs.Keeps (fs.insert location entry) := by
  refine ⟨rfl, fun other directory => ?_⟩
  have apart : other ≠ location := by
    rintro rfl
    exact vacant directory
  rw [fs.entry?_insert_of_ne apart, directory]

/-! ## A written file -/

section Written

variable {path : Path} {content : ByteArray}

/-- What is written lies where the path leads, in place of what was there. -/
theorem exists_location_of_write (written : fs.write path content = .ok after) :
    ∃ location, fs.entry? location ≠ some .directory ∧
      after = fs.insert location (.file content) ∧ after.locate path = .ok location ∧
      after.entry? location = some (.file content) := by
  obtain ⟨location, route, placed, -, short, vacant, rfl⟩ := write_eq_ok_iff.mp written
  obtain ⟨below, -, located⟩ := locate_of_place placed short
  exact ⟨location, vacant, rfl, (keeps_insert vacant _).locate located,
    fs.entry?_insert_self below _⟩

theorem Keeps.of_write (written : fs.write path content = .ok after) : fs.Keeps after := by
  obtain ⟨location, vacant, rfl, -⟩ := exists_location_of_write written
  exact keeps_insert vacant (.file content)

theorem isDirectory_of_write (written : fs.write path content = .ok after) :
    after.isDirectory path = false := by
  obtain ⟨location, -, -, located, there⟩ := exists_location_of_write written
  rw [← Bool.not_eq_true, isDirectory_iff]
  rintro ⟨other, located', directory⟩
  rw [located] at located'
  cases located'
  rw [there] at directory
  cases directory

theorem read_of_write (written : fs.write path content = .ok after) :
    after.read path = .ok content := by
  obtain ⟨location, route, placed, noSlash, short, vacant, rfl⟩ := write_eq_ok_iff.mp written
  have keeps := keeps_insert vacant (.file content)
  obtain ⟨below, routed, located⟩ := locate_of_place placed short
  obtain ⟨route', routed', followed⟩ := bind_except_eq_ok.mp (keeps.locate located)
  rw [keeps.route, routed] at routed'
  cases routed'
  have found : find (fs.insert location (.file content)) path = .ok (.file content) := by
    refine find_eq_ok_iff.mpr ⟨route, location, (keeps.route path).trans routed, ?_,
      fs.entry?_insert_self below _⟩
    rw [noSlash, if_neg Bool.false_ne_true]
    exact followed
  rw [read, found]
  rfl

/-- To write the same again changes nothing. -/
theorem write_of_write (written : fs.write path content = .ok after) :
    after.write path content = .ok after := by
  obtain ⟨location, route, placed, noSlash, short, vacant, rfl⟩ := write_eq_ok_iff.mp written
  have keeps := keeps_insert vacant (.file content)
  obtain ⟨below, -, -⟩ := locate_of_place placed short
  refine write_eq_ok_iff.mpr ⟨location, route, keeps.place placed, noSlash, short, ?_, ?_⟩
  · rw [fs.entry?_insert_self below]
    simp
  · rw [insert_insert]

end Written

/-! ## Further directories -/

/-- The second state has further directories, each where there was nothing and where one of the
paths leads, and is otherwise the first. -/
structure Gains (before : FileSystem) (paths : Path → Prop) (after : FileSystem) : Prop where
  workingDirectory : after.workingDirectory = before.workingDirectory
  entry : ∀ location, after.entry? location = before.entry? location ∨
    before.entry? location = none ∧ after.entry? location = some .directory ∧
      ∃ path, paths path ∧ after.locate path = .ok location

variable {paths : Path → Prop}

theorem Gains.refl (fs : FileSystem) (paths : Path → Prop) : fs.Gains paths fs :=
  ⟨rfl, fun _ => .inl rfl⟩

theorem Gains.keeps (gains : fs.Gains paths after) : fs.Keeps after := by
  refine ⟨gains.workingDirectory, fun location there => ?_⟩
  rcases gains.entry location with same | ⟨empty, -⟩
  · exact same.trans there
  · rw [there] at empty
    cases empty

/-- No regular file comes, goes or changes. -/
theorem Gains.file? (gains : fs.Gains paths after) (location : Location) :
    after.file? location = fs.file? location := by
  unfold FileSystem.file?
  rcases gains.entry location with same | ⟨empty, directory, -⟩
  · rw [same]
  · rw [empty, directory]

theorem Gains.trans {middle : FileSystem} (first : fs.Gains paths middle)
    (second : middle.Gains paths after) : fs.Gains paths after := by
  refine ⟨second.workingDirectory.trans first.workingDirectory, fun location => ?_⟩
  rcases second.entry location with same | ⟨empty, directory, reached⟩
  · rcases first.entry location with old | ⟨empty, directory, path, listed, located⟩
    · exact .inl (same.trans old)
    · exact .inr ⟨empty, same.trans directory, path, listed, second.keeps.locate located⟩
  · rcases first.entry location with old | ⟨-, wrong, -⟩
    · exact .inr ⟨old.symm.trans empty, directory, reached⟩
    · rw [wrong] at empty
      cases empty

theorem Gains.mono {more : Path → Prop} (gains : fs.Gains paths after)
    (wider : ∀ path, paths path → more path) : fs.Gains more after := by
  refine ⟨gains.workingDirectory, fun location => ?_⟩
  rcases gains.entry location with same | ⟨empty, directory, path, listed, located⟩
  · exact .inl same
  · exact .inr ⟨empty, directory, path, wider path listed, located⟩

theorem Keeps.isDirectory (keeps : fs.Keeps after) {path : Path}
    (there : fs.isDirectory path = true) : after.isDirectory path = true := by
  obtain ⟨location, located, directory⟩ := isDirectory_iff.mp there
  exact isDirectory_iff.mpr ⟨location, keeps.locate located, keeps.directory location directory⟩

/-- Making a directory gains that directory. -/
theorem gains_of_createDirectory {path : Path} (made : fs.createDirectory path = .ok after) :
    fs.Gains (· = path) after ∧ after.isDirectory path = true := by
  obtain ⟨location, located, below, empty, rfl⟩ := createDirectory_eq_ok made
  have there := fs.entry?_insert_self below .directory
  have vacant : fs.entry? location ≠ some .directory := by simp [empty]
  have located' := (keeps_insert vacant .directory).locate located
  refine ⟨⟨rfl, fun other => ?_⟩, isDirectory_iff.mpr ⟨location, located', there⟩⟩
  by_cases here : other = location
  · rw [here]
    exact .inr ⟨empty, there, path, rfl, located'⟩
  · exact .inl (fs.entry?_insert_of_ne here .directory)

/-- Make a directory, or find that it is there. -/
def makeDirectory (fs : FileSystem) (path : Path) : Except IoError Unit × FileSystem :=
  match fs.createDirectory path with
  | .ok made => (.ok (), made)
  | .error .alreadyExists =>
    (if fs.isDirectory path then .ok () else .error .alreadyExists, fs)
  | .error error => (.error error, fs)

theorem makeDirectory_gains (fs : FileSystem) (path : Path) :
    fs.Gains (· = path) (fs.makeDirectory path).2 ∧
      ((fs.makeDirectory path).1 = .ok () → (fs.makeDirectory path).2.isDirectory path = true) := by
  unfold makeDirectory
  split
  · rename_i made done
    obtain ⟨gains, there⟩ := gains_of_createDirectory done
    exact ⟨gains, fun _ => there⟩
  · refine ⟨.refl fs _, ?_⟩
    split
    · rename_i there
      exact fun _ => there
    · intro wrong
      cases wrong
  · refine ⟨.refl fs _, ?_⟩
    intro wrong
    cases wrong

theorem makeDirectory_of_isDirectory {path : Path} (there : fs.isDirectory path = true) :
    fs.makeDirectory path = (.ok (), fs) := by
  rw [makeDirectory, createDirectory_of_isDirectory there]
  simp [there]

/-- There is no need to create the directory: the path has no parent, or the directory is there. -/
def Ready (fs : FileSystem) (path : Path) : Prop :=
  path.parent? = none ∨ fs.isDirectory path = true

theorem Keeps.ready (keeps : fs.Keeps after) {path : Path} (ready : fs.Ready path) :
    after.Ready path :=
  ready.imp_right keeps.isDirectory

end FileSystem

/-! ## Directories with their ancestors -/

/-- The parent, its parent, and so on. -/
inductive Path.IsAncestor : Path → Path → Prop where
  | parent {path parent : Path} (above : path.parent? = some parent) : IsAncestor parent path
  | further {path parent ancestor : Path} (above : path.parent? = some parent)
      (upwards : IsAncestor ancestor parent) : IsAncestor ancestor path

theorem Path.eq_or_isAncestor_of_mem {count : Nat} {path ancestor : Path}
    (member : ancestor ∈ ancestorsUpTo count path) : ancestor = path ∨ ancestor.IsAncestor path := by
  induction count generalizing path with
  | zero => exact .inl (List.mem_singleton.mp member)
  | succ count ih =>
      rw [ancestorsUpTo] at member
      split at member
      · exact .inl (List.mem_singleton.mp member)
      · rename_i parent above
        rcases List.mem_cons.mp member with same | upwards
        · exact .inl same
        · rcases ih upwards with rfl | higher
          · exact .inr (.parent above)
          · exact .inr (.further above higher)

theorem Path.exists_ancestors_eq_cons (path : Path) : ∃ others, path.ancestors = path :: others := by
  unfold ancestors
  cases path.components.length with
  | zero => exact ⟨[], rfl⟩
  | succ count =>
      rw [ancestorsUpTo]
      split
      · exact ⟨[], rfl⟩
      · exact ⟨_, rfl⟩

namespace Files

open FileSystem

theorem run_createDirectory (path : Path) (fs : FileSystem) :
    (createDirectory path : StateM FileSystem (Except IoError Unit)).run fs =
      match fs.createDirectory path with
      | .ok made => (.ok (), made)
      | .error error => (.error error, fs) := rfl

theorem run_settleDirectory (path : Path) (outcome : Except IoError Unit) (fs : FileSystem) :
    (settleDirectory path outcome : StateM FileSystem (Except IoError Unit)).run fs =
      (if outcome = .error .alreadyExists ∧ fs.isDirectory path then .ok () else outcome, fs) := by
  rcases outcome with error | value
  · cases error with
    | alreadyExists =>
        show (if fs.isDirectory path then _ else _ : StateM FileSystem (Except IoError Unit)).run fs = _
        cases fs.isDirectory path <;> rfl
    | _ => rfl
  · rfl

theorem run_makeDirectory (path : Path) (fs : FileSystem) :
    (createDirectory path >>= settleDirectory path :
      StateM FileSystem (Except IoError Unit)).run fs = fs.makeDirectory path := by
  show (settleDirectory path (update (·.createDirectory path) fs).1 :
      StateM FileSystem (Except IoError Unit)).run (update (·.createDirectory path) fs).2 = _
  rw [run_settleDirectory, makeDirectory, update]
  cases fs.createDirectory path with
  | ok made => rfl
  | error error => cases error <;> simp

/-- The first path of the list is made at once, or after those behind it. -/
theorem run_createNearest_cons (path : Path) (ancestors : List Path) (fs : FileSystem) :
    (createNearest (path :: ancestors) : StateM FileSystem (Except IoError Unit)).run fs =
      if path.parent?.isNone then (.ok (), fs)
      else
        match fs.createDirectory path with
        | .error .notFound =>
          match (createNearest ancestors : StateM FileSystem (Except IoError Unit)).run fs with
          | (.error error, middle) => (.error error, middle)
          | (.ok (), middle) => middle.makeDirectory path
        | _ => fs.makeDirectory path := by
  rw [createNearest]
  by_cases orphan : path.parent?.isNone
  · rw [if_pos orphan, if_pos orphan]
    rfl
  · rw [if_neg orphan, if_neg orphan, ← run_makeDirectory, StateT.run_bind, StateT.run_bind,
      run_createDirectory]
    cases made : fs.createDirectory path with
    | ok changed => rfl
    | error error =>
        cases error with
        | notFound =>
            change (createNearest ancestors >>= _ : StateM FileSystem (Except IoError Unit)).run fs = _
            rw [StateT.run_bind]
            rcases (createNearest ancestors : StateM FileSystem (Except IoError Unit)).run fs with
              ⟨error | _, middle⟩
            · rfl
            · exact run_makeDirectory path middle
        | _ => rfl

/-- Whether it succeeds or fails, creating paths gains directories where they lead. -/
theorem createNearest_gains (paths : List Path) (fs : FileSystem) :
    fs.Gains (· ∈ paths)
      ((createNearest paths : StateM FileSystem (Except IoError Unit)).run fs).2 := by
  induction paths with
  | nil => exact .refl fs _
  | cons path ancestors ih =>
      have own : ∀ state : FileSystem,
          state.Gains (· ∈ path :: ancestors) (state.makeDirectory path).2 := fun state =>
        (state.makeDirectory_gains path).1.mono fun _ same => same ▸ List.mem_cons_self
      rw [run_createNearest_cons]
      split
      · exact .refl fs _
      · split
        · have behind := ih.mono fun _ listed => List.mem_cons_of_mem path listed
          split
          · rename_i error middle ran
            rw [ran] at behind
            exact behind
          · rename_i middle ran
            rw [ran] at behind
            exact behind.trans (own middle)
        · exact own fs

/-- What has been created is there. -/
theorem ready_of_createNearest {path : Path} {ancestors : List Path} {fs after : FileSystem}
    (created : (createNearest (path :: ancestors) : StateM FileSystem (Except IoError Unit)).run fs =
      (.ok (), after)) : after.Ready path := by
  have own : ∀ state : FileSystem, state.makeDirectory path = (.ok (), after) →
      after.isDirectory path = true := by
    intro state made
    have there := (state.makeDirectory_gains path).2
    rw [made] at there
    exact there rfl
  rw [run_createNearest_cons] at created
  split at created
  · rename_i orphan
    exact .inl (Option.isNone_iff_eq_none.mp orphan)
  · split at created
    · split at created
      · cases created
      · exact .inr (own _ created)
    · exact .inr (own _ created)

/-- What is there need not be created. -/
theorem createNearest_of_ready {path : Path} {fs : FileSystem} (ready : fs.Ready path)
    (ancestors : List Path) :
    (createNearest (path :: ancestors) : StateM FileSystem (Except IoError Unit)).run fs =
      (.ok (), fs) := by
  rw [run_createNearest_cons]
  rcases ready with orphan | there
  · simp [orphan]
  · rw [createDirectory_of_isDirectory there, makeDirectory_of_isDirectory there]
    split <;> rfl

variable {path : Path} {fs : FileSystem}

theorem createDirectories_gains (path : Path) (fs : FileSystem) :
    fs.Gains (fun ancestor => ancestor = path ∨ ancestor.IsAncestor path)
      ((createDirectories path : StateM FileSystem (Except IoError Unit)).run fs).2 :=
  (createNearest_gains path.ancestors fs).mono fun _ => Path.eq_or_isAncestor_of_mem

theorem ready_of_createDirectories {after : FileSystem}
    (created : (createDirectories path : StateM FileSystem (Except IoError Unit)).run fs =
      (.ok (), after)) : after.Ready path := by
  obtain ⟨others, ancestors⟩ := path.exists_ancestors_eq_cons
  rw [createDirectories, ancestors] at created
  exact ready_of_createNearest created

theorem createDirectories_of_ready (ready : fs.Ready path) :
    (createDirectories path : StateM FileSystem (Except IoError Unit)).run fs = (.ok (), fs) := by
  obtain ⟨others, ancestors⟩ := path.exists_ancestors_eq_cons
  rw [createDirectories, ancestors]
  exact createNearest_of_ready ready others

end Files

end VoiceGrammar
