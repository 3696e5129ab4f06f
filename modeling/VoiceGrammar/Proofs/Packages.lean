/-
# The package of an output file

Inferring a package is a matter of components alone (`inferPackage_eq`): the first root whose
components begin those of the file decides, and what stands between them and the last component
is the package. So the package is there exactly if the file lies deeper than that root
(`inferPackage_eq_some_iff`), whatever the other roots and however the paths are written.

Joining plain paths to a base puts the same components before all of them. This changes neither
which root is the first nor what stands behind it (`inferPackage_join`), so it does not matter
where the file with the settings of a project lies.
-/
import VoiceGrammar.Command.Run
import VoiceGrammar.Files.FileSystem
import VoiceGrammar.Proofs.PathComponents

namespace VoiceGrammar

set_option autoImplicit false

/-! ## Packages from components -/

theorem Path.isUnder_iff {path root : Path} :
    path.isUnder root = true ↔ root.components <+: path.components :=
  List.isPrefixOf_iff_prefix

/-- The directories between a root and a file, given their components. -/
def directoriesBetween (root out : List String) : List String :=
  (out.drop root.length).dropLast

/-- The package that directories make. -/
def packageOf? : List String → Option String
  | [] => none
  | directories => some (".".intercalate directories)

theorem packageOf?_eq_some_iff {directories : List String} {package : String} :
    packageOf? directories = some package ↔
      directories ≠ [] ∧ package = ".".intercalate directories := by
  cases directories with
  | nil => simp [packageOf?]
  | cons first later => simp [packageOf?, eq_comm]

theorem directoriesBetween_append (root directories : List String) (file : String) :
    directoriesBetween root (root ++ directories ++ [file]) = directories := by
  rw [directoriesBetween, List.append_assoc, List.drop_left, List.dropLast_concat]

theorem directoriesBetween_append_left (base root out : List String) :
    directoriesBetween (base ++ root) (base ++ out) = directoriesBetween root out := by
  rw [directoriesBetween, List.length_append, ← List.drop_drop, List.drop_left, directoriesBetween]

theorem directoriesBetween_self (root : List String) : directoriesBetween root root = [] := by
  rw [directoriesBetween, List.drop_length, List.dropLast_nil]

/-- A path without a parent lies in no directory. -/
theorem directoriesBetween_of_parent?_eq_none {out : Path} (none : out.parent? = none)
    (root : List String) : directoriesBetween root out.components = [] := by
  rcases Path.components_of_parent?_eq_none none with empty | top
  · simp [directoriesBetween, empty]
  · cases root <;> simp [directoriesBetween, top]

theorem inferPackage_eq (out : Path) (roots : List Path) :
    inferPackage out roots =
      ((roots.map Path.components).find? (·.isPrefixOf out.components)).bind fun root =>
        packageOf? (directoriesBetween root out.components) := by
  rw [List.find?_map, Option.bind_map, inferPackage]
  apply Option.bind_congr
  intro root found
  have under : root.components <+: out.components := Path.isUnder_iff.mp (List.find?_some found)
  show _ = packageOf? (directoriesBetween root.components out.components)
  cases above : out.parent? with
  | none =>
      rw [directoriesBetween_of_parent?_eq_none above]
      rfl
  | some parent =>
      obtain ⟨last, split⟩ := Path.components_of_parent? above
      rw [split] at under ⊢
      rcases List.prefix_concat_iff.mp under with whole | ⟨directories, inside⟩
      · have outside : parent.isUnder root = false := by
          rw [Bool.eq_false_iff, ne_eq, Path.isUnder_iff, whole]
          intro shorter
          have length := shorter.length_le
          rw [List.length_append, List.length_singleton] at length
          omega
        rw [whole, directoriesBetween_self]
        simp [outside, packageOf?]
      · have within : parent.isUnder root = true := by
          rw [Path.isUnder_iff, ← inside]
          exact List.prefix_append _ _
        rw [← inside, directoriesBetween_append]
        simp only [Option.bind_eq_bind, Option.bind_some, within, if_true, ← inside,
          List.drop_left]
        cases directories <;> rfl

/-- The root is the first of the list that contains the file. -/
structure Decides (out : Path) (roots : List Path) (root : Path) : Prop where
  around : root.components <+: out.components
  first : ∃ earlier later, roots = earlier ++ root :: later ∧
    ∀ other ∈ earlier, ¬ other.components <+: out.components

theorem find?_cons_around {root out : List String} (around : root <+: out)
    (later : List (List String)) : (root :: later).find? (·.isPrefixOf out) = some root :=
  List.find?_cons_of_pos (List.isPrefixOf_iff_prefix.mpr around)

section Roots

variable {out root : Path} {roots : List Path} {package : String}

theorem find?_eq_some_of_decides (decides : Decides out roots root) :
    (roots.map Path.components).find? (·.isPrefixOf out.components) = some root.components := by
  obtain ⟨earlier, later, rfl, outside⟩ := decides.first
  rw [List.map_append, List.map_cons, List.find?_append, find?_cons_around decides.around,
    List.find?_eq_none.mpr, Option.none_or]
  intro names listed
  obtain ⟨other, member, rfl⟩ := List.mem_map.mp listed
  rw [List.isPrefixOf_iff_prefix]
  exact outside other member

/-- No root behind the one that decides is looked at. -/
theorem inferPackage_of_decides (decides : Decides out roots root) :
    inferPackage out roots = packageOf? (directoriesBetween root.components out.components) := by
  rw [inferPackage_eq, find?_eq_some_of_decides decides, Option.bind_some]

theorem inferPackage_of_outside (outside : ∀ root ∈ roots, ¬ root.components <+: out.components) :
    inferPackage out roots = none := by
  rw [inferPackage_eq, List.find?_eq_none.mpr, Option.bind_none]
  intro names listed
  obtain ⟨root, member, rfl⟩ := List.mem_map.mp listed
  rw [List.isPrefixOf_iff_prefix]
  exact outside root member

theorem outside_or_exists_decides (out : Path) (roots : List Path) :
    (∀ root ∈ roots, ¬ root.components <+: out.components) ∨ ∃ root, Decides out roots root := by
  cases found : roots.find? out.isUnder with
  | none =>
      refine .inl fun root member => ?_
      rw [← Path.isUnder_iff]
      exact List.find?_eq_none.mp found root member
  | some root =>
      obtain ⟨around, earlier, later, split, outside⟩ := List.find?_eq_some_iff_append.mp found
      refine .inr ⟨root, Path.isUnder_iff.mp around, earlier, later, split, ?_⟩
      intro other member
      rw [← Path.isUnder_iff]
      simpa using outside other member

theorem inferPackage_eq_some_iff :
    inferPackage out roots = some package ↔
      ∃ root directories file, Decides out roots root ∧
        out.components = root.components ++ directories ++ [file] ∧ directories ≠ [] ∧
        package = ".".intercalate directories := by
  constructor
  · intro inferred
    rcases outside_or_exists_decides out roots with outside | ⟨root, decides⟩
    · rw [inferPackage_of_outside outside] at inferred
      cases inferred
    · obtain ⟨rest, split⟩ := decides.around
      rw [inferPackage_of_decides decides, ← split, directoriesBetween, List.drop_left,
        packageOf?_eq_some_iff] at inferred
      obtain ⟨deep, joined⟩ := inferred
      have nonempty : rest ≠ [] := by
        rintro rfl
        exact deep rfl
      refine ⟨root, rest.dropLast, rest.getLast nonempty, decides, ?_, deep, joined⟩
      rw [List.append_assoc, List.dropLast_append_getLast, split]
  · rintro ⟨root, directories, file, decides, split, deep, rfl⟩
    rw [inferPackage_of_decides decides, split, directoriesBetween_append, packageOf?_eq_some_iff]
    exact ⟨deep, rfl⟩

theorem inferPackage_eq_none_iff :
    inferPackage out roots = none ↔
      (∀ root ∈ roots, ¬ root.components <+: out.components) ∨
      ∃ root, Decides out roots root ∧ (out.components = root.components ∨
        ∃ file, out.components = root.components ++ [file]) := by
  constructor
  · intro inferred
    rcases outside_or_exists_decides out roots with outside | ⟨root, decides⟩
    · exact .inl outside
    · refine .inr ⟨root, decides, ?_⟩
      obtain ⟨rest, split⟩ := decides.around
      rw [← split]
      rcases List.eq_nil_or_concat rest with rfl | ⟨directories, file, rfl⟩
      · exact .inl (List.append_nil _)
      · rw [List.concat_eq_append, ← List.append_assoc] at split ⊢
        rw [inferPackage_of_decides decides, ← split, directoriesBetween_append] at inferred
        cases directories with
        | nil => exact .inr ⟨file, by rw [List.append_nil]⟩
        | cons first later => cases inferred
  · rintro (outside | ⟨root, decides, same | ⟨file, direct⟩⟩)
    · exact inferPackage_of_outside outside
    · rw [inferPackage_of_decides decides, same, directoriesBetween_self]
      rfl
    · have split : out.components = root.components ++ [] ++ [file] := by
        rw [direct, List.append_nil]
      rw [inferPackage_of_decides decides, split, directoriesBetween_append]
      rfl

end Roots

/-- **The package of a file is what stands between the first root around it and the file.** It is
there exactly if the components of the file are those of this root, then one or more others, which
are joined with dots, and a last one. Otherwise there is no package: no root contains the file, or
the first that does is the file itself or the directory it lies in. The roots behind it never
matter, and of the paths nothing but the components, which are the same for two paths exactly if
these differ in slashes and dots that do not count. -/
theorem package_from_first_root (out : Path) (roots : List Path) :
    (∀ package, inferPackage out roots = some package ↔
      ∃ root directories file, Decides out roots root ∧
        out.components = root.components ++ directories ++ [file] ∧ directories ≠ [] ∧
        package = ".".intercalate directories) ∧
    (inferPackage out roots = none ↔
      (∀ root ∈ roots, ¬ root.components <+: out.components) ∨
      ∃ root, Decides out roots root ∧ (out.components = root.components ∨
        ∃ file, out.components = root.components ++ [file])) ∧
    (∀ earlier root later others, roots = earlier ++ root :: later →
      root.components <+: out.components →
      inferPackage out (earlier ++ root :: others) = inferPackage out roots) ∧
    (∀ out' roots', out'.components = out.components →
      roots'.map Path.components = roots.map Path.components →
      inferPackage out' roots' = inferPackage out roots) ∧
    ∀ path other : Path, path.components = other.components ↔ path.Respelled other := by
  refine ⟨fun _ => inferPackage_eq_some_iff, inferPackage_eq_none_iff, ?_, ?_,
    fun _ _ => Path.components_eq_iff_respelled⟩
  · rintro earlier root later others rfl around
    simp only [inferPackage_eq, List.map_append, List.map_cons, List.find?_append,
      find?_cons_around around]
  · intro out' roots' same sameRoots
    rw [inferPackage_eq, inferPackage_eq, same, sameRoots]

/-! ## Packages and places -/

/-- What stands before all paths makes no difference. -/
theorem inferPackage_join {out : Path} {roots : List Path}
    (plain : ∀ path ∈ out :: roots, path.IsPlain) (base : Path) :
    inferPackage (base.join out) (roots.map base.join) = inferPackage out roots := by
  have joined : (roots.map base.join).map Path.components =
      (roots.map Path.components).map (base.components ++ ·) := by
    rw [List.map_map, List.map_map]
    apply List.map_congr_left
    intro root member
    exact Path.components_join (plain root (List.mem_cons_of_mem _ member))
  have shifted : ((·.isPrefixOf (base.components ++ out.components)) ∘ (base.components ++ ·)) =
      (·.isPrefixOf out.components) := by
    funext root
    rw [Bool.eq_iff_iff, Function.comp_apply, List.isPrefixOf_iff_prefix,
      List.isPrefixOf_iff_prefix, List.prefix_append_right_inj]
  rw [inferPackage_eq, inferPackage_eq, joined, Path.components_join (plain out List.mem_cons_self),
    List.find?_map, shifted, Option.bind_map]
  apply Option.bind_congr
  intro root _
  rw [Function.comp_apply, directoriesBetween_append_left]

/-- Relative to any base, the settings of a project plan the same package. -/
theorem GenerationPlan.package_merge_relativeTo {options : GenerateOptions} {settings : Settings}
    {out : Path} (file : settings.out = some out)
    (plain : ∀ path ∈ out :: settings.sourceRoots, path.IsPlain) (noFile : options.out = none)
    (noRoots : options.sourceRoots = []) (base : Path) :
    (merge options (settings.relativeTo base)).package = (merge options settings).package := by
  have inferred := inferPackage_join plain base
  simp only [merge, Settings.relativeTo, noFile, noRoots, file, Option.none_or, Option.map_some,
    List.isEmpty_nil, if_true]
  cases (options.target.or settings.target).getD Command.defaultTarget with
  | rust => rfl
  | kotlin => simp only [inferred]

/-- The text that a file holds. -/
def FileSystem.text? (fs : FileSystem) (file : Path) : Option String :=
  (fs.read file).toOption.bind String.fromUTF8?

theorem Files.run_readText {fs : FileSystem} {file : Path} {text : String}
    (holds : fs.text? file = some text) :
    (readText file : StateM FileSystem (Except IoError String)).run fs = (.ok text, fs) := by
  obtain ⟨bytes, found, decoded⟩ := Option.bind_eq_some_iff.mp holds
  have content : fs.read file = .ok bytes := by
    cases outcome : fs.read file with
    | error error => simp [outcome, Except.toOption] at found
    | ok other => simpa [outcome, Except.toOption] using found
  have ran : (read file : StateM FileSystem (Except IoError ByteArray)).run fs = (.ok bytes, fs) :=
    Prod.ext content rfl
  rw [readText, StateT.run_bind, ran]
  simp only [decoded, bind]
  rfl

/-- The settings in a file are meant from the directory that holds it. -/
theorem Settings.run_read {fs : FileSystem} {file : Path} {text : String} {settings : Settings}
    (holds : fs.text? file = some text) (parsed : parse? text = some settings) :
    (read file : StateM FileSystem (Except Error Settings)).run fs =
      (.ok (settings.relativeTo (file.parent?.getD ⟨""⟩)), fs) := by
  rw [read, StateT.run_bind, Files.run_readText holds]
  simp only [parsed, bind]
  rfl

/-- **The inferred package does not depend on where the settings lie.** For an output file and roots
that are relative and do not begin with a dot, joining all of them to any base leaves the package as
it is. So a file with such settings, wherever it lies, plans the package that its paths give as they
are written. -/
theorem package_independent_of_base {out : Path} {roots : List Path}
    (plain : ∀ path ∈ out :: roots, path.IsPlain) :
    (∀ base : Path,
      inferPackage (base.join out) (roots.map base.join) = inferPackage out roots) ∧
    ∀ (settings : Settings) (options : GenerateOptions), settings.out = some out →
      settings.sourceRoots = roots → options.out = none → options.sourceRoots = [] →
      (∀ base : Path, (GenerationPlan.merge options (settings.relativeTo base)).package =
        (GenerationPlan.merge options settings).package) ∧
      ∀ (fs : FileSystem) (file : Path) (text : String), fs.text? file = some text →
        Settings.parse? text = some settings →
        ∃ resolved, (Settings.read file :
            StateM FileSystem (Except Settings.Error Settings)).run fs = (.ok resolved, fs) ∧
          (GenerationPlan.merge options resolved).package =
            (GenerationPlan.merge options settings).package := by
  refine ⟨inferPackage_join plain, ?_⟩
  rintro settings options file rfl noFile noRoots
  have planned := GenerationPlan.package_merge_relativeTo file plain noFile noRoots
  refine ⟨planned, ?_⟩
  intro fs place text holds parsed
  exact ⟨_, Settings.run_read holds parsed, planned _⟩

/-- Two roots contain the file, the first of them written with slashes that do not count; the
settings lie below the working directory. -/
theorem package_independent_of_base_voice :
    let out : Path := ⟨"src/../kt/com/voice/Intents.kt"⟩
    let roots : List Path := [⟨"gen"⟩, ⟨"src//../kt/"⟩, ⟨""⟩]
    let settings : Settings := ⟨none, some out, some .kotlin, none, roots⟩
    let options : GenerateOptions := ⟨none, none, none, none, [], none⟩
    let text := "[generate]\nout = \"src/../kt/com/voice/Intents.kt\"\ntarget = \"kotlin\"\n" ++
      "source_roots = [\"gen\", \"src//../kt/\", \"\"]\n"
    let fs : FileSystem := ⟨["home"], [(["home"], .directory), (["home", "app"], .directory),
      (["home", "app", "phrasebook.toml"], .file text.toUTF8)]⟩
    (∀ path ∈ out :: roots, path.IsPlain) ∧ Settings.parse? text = some settings ∧
    inferPackage out roots = some "com.voice" ∧
    inferPackage (Path.join ⟨"/opt//"⟩ out) (roots.map (Path.join ⟨"/opt//"⟩)) = some "com.voice" ∧
    ∃ resolved, (Settings.read ⟨"app//phrasebook.toml"⟩ :
        StateM FileSystem (Except Settings.Error Settings)).run fs = (.ok resolved, fs) ∧
      (GenerationPlan.merge options resolved).package = some "com.voice" := by
  intro out roots settings options text fs
  have plain : ∀ path ∈ out :: roots, path.IsPlain := by decide +kernel
  have inferred : inferPackage out roots = some "com.voice" := by decide +kernel
  have planned : (GenerationPlan.merge options settings).package = some "com.voice" := by
    decide +kernel
  have holds : fs.text? ⟨"app//phrasebook.toml"⟩ = some text := by decide +kernel
  have parsed : Settings.parse? text = some settings := by decide +kernel
  obtain ⟨joined, places⟩ := package_independent_of_base plain
  obtain ⟨-, anywhere⟩ := places settings options rfl rfl rfl rfl
  obtain ⟨resolved, ran, package⟩ := anywhere fs _ text holds parsed
  exact ⟨plain, parsed, inferred, (joined _).trans inferred, resolved, ran, package.trans planned⟩

end VoiceGrammar
