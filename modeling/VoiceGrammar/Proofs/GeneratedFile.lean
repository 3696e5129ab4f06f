/-
# Generating checks first and then writes one file

Generating a decoder looks at the output path, makes the whole text, creates the
directories that the file lacks and writes the file, in this order (`run_generate`,
`run_writeText`). So what is wrong with the path, the grammar or the names shows before
anything is touched (`generate_cases`). A failure of the file system leaves at most some of
the missing directories behind (`writeText_eq_error`). After a success everything is in
place, so that a second run does nothing (`writeText_again`).
-/
import VoiceGrammar.Generation
import VoiceGrammar.Proofs.FileChanges

namespace VoiceGrammar.Grammar

set_option autoImplicit false

open Files

/-! ## Directories and the file -/

theorem run_prepareParent (out : Path) (fs : FileSystem) :
    (prepareParent out : StateM FileSystem (Except GenerationError Unit)).run fs =
      match out.parent?.filter (!·.text.isEmpty) with
      | none => (.ok (), fs)
      | some parent =>
        match (createDirectories parent : StateM FileSystem (Except IoError Unit)).run fs with
        | (.error cause, prepared) => (.error (.io parent cause), prepared)
        | (.ok (), prepared) => (.ok (), prepared) := by
  rw [prepareParent]
  cases out.parent?.filter (!·.text.isEmpty) with
  | none => rfl
  | some parent =>
      simp only [StateT.run_bind]
      rcases (createDirectories parent : StateM FileSystem (Except IoError Unit)).run fs with
        ⟨cause | _, prepared⟩ <;> rfl

section Prepared

variable {out : Path} {fs prepared : FileSystem}

theorem prepareParent_gains (out : Path) (fs : FileSystem) :
    fs.Gains (·.IsAncestor out)
      ((prepareParent out : StateM FileSystem (Except GenerationError Unit)).run fs).2 := by
  rw [run_prepareParent]
  split
  · exact .refl fs _
  · rename_i parent found
    obtain ⟨above, -⟩ := Option.filter_eq_some_iff.mp found
    have upwards : ∀ ancestor : Path,
        ancestor = parent ∨ ancestor.IsAncestor parent → ancestor.IsAncestor out := by
      rintro ancestor (rfl | higher)
      · exact .parent above
      · exact .further above higher
    have gains := (createDirectories_gains parent fs).mono upwards
    split <;> rename_i creating <;> rw [creating] at gains <;> exact gains

theorem exists_io_of_prepareParent {error : GenerationError}
    (ran : (prepareParent out : StateM FileSystem (Except GenerationError Unit)).run fs =
      (.error error, prepared)) : ∃ path cause, error = .io path cause := by
  rw [run_prepareParent] at ran
  split at ran
  · cases ran
  · split at ran
    · cases ran
      exact ⟨_, _, rfl⟩
    · cases ran

/-- Once the directories are there, there is nothing more to prepare. -/
theorem prepareParent_of_keeps {later : FileSystem}
    (ran : (prepareParent out : StateM FileSystem (Except GenerationError Unit)).run fs =
      (.ok (), prepared)) (keeps : prepared.Keeps later) :
    (prepareParent out : StateM FileSystem (Except GenerationError Unit)).run later =
      (.ok (), later) := by
  rw [run_prepareParent] at ran ⊢
  split at ran
  · rfl
  · split at ran
    · cases ran
    · rename_i creating
      cases ran
      simp only [createDirectories_of_ready (keeps.ready (ready_of_createDirectories creating))]

end Prepared

theorem run_writeText (out : Path) (text : String) (fs : FileSystem) :
    (writeText out text : StateM FileSystem (Except GenerationError Unit)).run fs =
      match (prepareParent out : StateM FileSystem (Except GenerationError Unit)).run fs with
      | (.error error, prepared) => (.error error, prepared)
      | (.ok (), prepared) =>
        match prepared.write out text.toUTF8 with
        | .error cause => (.error (.io out cause), prepared)
        | .ok after => (.ok (), after) := by
  rw [writeText, StateT.run_bind]
  rcases (prepareParent out : StateM FileSystem (Except GenerationError Unit)).run fs with
    ⟨error | _, prepared⟩
  · rfl
  · show (Except.mapError _ (FileSystem.update (·.write out text.toUTF8) prepared).1,
      (FileSystem.update (·.write out text.toUTF8) prepared).2) = _
    dsimp only [FileSystem.update]
    cases prepared.write out text.toUTF8 <;> rfl

section Written

variable {out : Path} {text : String} {fs after : FileSystem}

/-- A failure to write is one of the file system, and leaves directories behind at most. -/
theorem writeText_eq_error {error : GenerationError}
    (ran : (writeText out text : StateM FileSystem (Except GenerationError Unit)).run fs =
      (.error error, after)) :
    (∃ path cause, error = .io path cause) ∧ fs.Gains (·.IsAncestor out) after := by
  have gains := prepareParent_gains out fs
  rw [run_writeText] at ran
  split at ran
  · rename_i failure prepared preparing
    cases ran
    rw [preparing] at gains
    exact ⟨exists_io_of_prepareParent preparing, gains⟩
  · rename_i prepared preparing
    rw [preparing] at gains
    split at ran
    · cases ran
      exact ⟨⟨_, _, rfl⟩, gains⟩
    · cases ran

theorem writeText_eq_ok_iff :
    (writeText out text : StateM FileSystem (Except GenerationError Unit)).run fs = (.ok (), after) ↔
      ∃ prepared,
        (prepareParent out : StateM FileSystem (Except GenerationError Unit)).run fs =
          (.ok (), prepared) ∧ prepared.write out text.toUTF8 = .ok after := by
  rw [run_writeText]
  constructor
  · intro ran
    split at ran
    · cases ran
    · rename_i prepared preparing
      split at ran
      · cases ran
      · rename_i changed written
        cases ran
        exact ⟨prepared, preparing, written⟩
  · rintro ⟨prepared, preparing, written⟩
    rw [preparing]
    simp only [written]

/-- To write a text again where it has been written changes nothing. -/
theorem writeText_again
    (ran : (writeText out text : StateM FileSystem (Except GenerationError Unit)).run fs =
      (.ok (), after)) :
    (writeText out text : StateM FileSystem (Except GenerationError Unit)).run after =
      (.ok (), after) := by
  obtain ⟨prepared, preparing, written⟩ := writeText_eq_ok_iff.mp ran
  exact writeText_eq_ok_iff.mpr
    ⟨after, prepareParent_of_keeps preparing (.of_write written), FileSystem.write_of_write written⟩

theorem isDirectory_of_writeText
    (ran : (writeText out text : StateM FileSystem (Except GenerationError Unit)).run fs =
      (.ok (), after)) : after.isDirectory out = false := by
  obtain ⟨prepared, -, written⟩ := writeText_eq_ok_iff.mp ran
  exact FileSystem.isDirectory_of_write written

end Written

/-! ## Generating -/

/-- A text that cannot be made does not fail because of the file system. -/
theorem decoderText_ne_io (grammar : Grammar) (target : Target) (package : Option String)
    (path : Path) (cause : IoError) :
    (grammar.decoderText target package).outcome ≠ .error (.io path cause) := by
  intro failed
  unfold decoderText at failed
  rw [Logged.outcome_bind, Logged.mapError] at failed
  cases compiled : (grammar.compile target.reserved).outcome with
  | error error =>
      rw [compiled] at failed
      cases failed
  | ok model =>
      rw [compiled, except_ok_bind, Logged.outcome_bind, Logged.ofExcept] at failed
      cases checked : model.checkNames target with
      | error error =>
          rw [checked] at failed
          cases failed
      | ok value =>
          rw [checked] at failed
          cases rendered : model.render? target package <;> rw [rendered] at failed <;> cases failed

theorem run_generate (grammar : Grammar) (target : Target) (package : Option String) (out : Path)
    (fs : FileSystem) :
    (grammar.generate target package out : StateM FileSystem (Logged GenerationError Unit)).run fs =
      if fs.isDirectory out then (.fail (.outputIsDirectory out), fs)
      else if out.extension? != some target.extension then
        (.fail (.wrongExtension out target.extension), fs)
      else
        let made := grammar.decoderText target package
        match made.outcome with
        | .error error => (⟨made.events, .error error⟩, fs)
        | .ok text =>
          match (writeText out text : StateM FileSystem (Except GenerationError Unit)).run fs with
          | (.error error, after) => (⟨made.events, .error error⟩, after)
          | (.ok (), after) =>
            (⟨made.events ++ [.wroteDecoder out.text target.name], .ok ()⟩, after) := by
  rw [generate, StateT.run_bind]
  show StateT.run (if fs.isDirectory out then _ else _) fs = _
  cases fs.isDirectory out with
  | true => rfl
  | false =>
      cases out.extension? != some target.extension with
      | true => rfl
      | false =>
          dsimp only
          cases (grammar.decoderText target package).outcome with
          | error error => rfl
          | ok text =>
              simp only [Bool.false_eq_true, if_false, StateT.run_bind]
              rcases (writeText out text : StateM FileSystem (Except GenerationError Unit)).run fs with
                ⟨error | _, after⟩ <;> rfl

/-- The ways in which generating can end. -/
theorem generate_cases {grammar : Grammar} {target : Target} {package : Option String} {out : Path}
    {fs after : FileSystem} {report : Logged GenerationError Unit}
    (ran : (grammar.generate target package out :
      StateM FileSystem (Logged GenerationError Unit)).run fs = (report, after)) :
    (∃ error, report.outcome = .error error ∧ (∀ path cause, error ≠ .io path cause) ∧ after = fs) ∨
    (∃ path cause, report.outcome = .error (.io path cause) ∧ fs.Gains (·.IsAncestor out) after) ∨
    (report.outcome = .ok () ∧ fs.isDirectory out = false ∧
      out.extension? = some target.extension ∧
      ∃ text, (grammar.decoderText target package).outcome = .ok text ∧
        (writeText out text : StateM FileSystem (Except GenerationError Unit)).run fs =
          (.ok (), after)) := by
  rw [run_generate] at ran
  split at ran
  · cases ran
    exact .inl ⟨_, rfl, by simp, rfl⟩
  · rename_i noDirectory
    split at ran
    · cases ran
      exact .inl ⟨_, rfl, by simp, rfl⟩
    · rename_i extension
      dsimp only at ran
      split at ran
      · rename_i error failed
        cases ran
        refine .inl ⟨error, rfl, ?_, rfl⟩
        rintro path cause rfl
        exact grammar.decoderText_ne_io target package path cause failed
      · rename_i text made
        split at ran
        · rename_i error changed writing
          cases ran
          obtain ⟨⟨path, cause, rfl⟩, gains⟩ := writeText_eq_error writing
          exact .inr (.inl ⟨path, cause, rfl, gains⟩)
        · rename_i changed writing
          cases ran
          exact .inr (.inr ⟨rfl, by simpa using noDirectory, by simpa using extension, text, made,
            writing⟩)

/-- If the path is as it should be, and the text is made and written, then generating succeeds. -/
theorem generate_of_written {grammar : Grammar} {target : Target} {package : Option String}
    {out : Path} {text : String} {fs after : FileSystem}
    (noDirectory : fs.isDirectory out = false) (extension : out.extension? = some target.extension)
    (made : (grammar.decoderText target package).outcome = .ok text)
    (writing : (writeText out text : StateM FileSystem (Except GenerationError Unit)).run fs =
      (.ok (), after)) :
    (grammar.generate target package out :
      StateM FileSystem (Logged GenerationError Unit)).run fs =
      (⟨(grammar.decoderText target package).events ++ [.wroteDecoder out.text target.name], .ok ()⟩,
        after) := by
  rw [run_generate, noDirectory, extension]
  simp [made, writing]

/-- **Generating checks first and then writes one file.** What is wrong with the path, the grammar
or the names shows before the file system is touched; a failure of the file system leaves no more
than further directories above the output file; and after a success the file holds the text of the
decoder, no other regular file has changed, and a second run ends in the same way and in the same
state. -/
theorem generate_checks_before_writing {grammar : Grammar} {target : Target}
    {package : Option String} {out : Path} {fs after : FileSystem}
    {report : Logged GenerationError Unit}
    (ran : (grammar.generate target package out :
      StateM FileSystem (Logged GenerationError Unit)).run fs = (report, after)) :
    (∀ error, report.outcome = .error error → (∀ path cause, error ≠ .io path cause) →
      after = fs) ∧
    (∀ path cause, report.outcome = .error (.io path cause) →
      (∀ location, after.file? location = fs.file? location) ∧
        fs.Gains (·.IsAncestor out) after) ∧
    (report.outcome = .ok () →
      fs.isDirectory out = false ∧ out.extension? = some target.extension ∧
      (∃ text, (grammar.decoderText target package).outcome = .ok text ∧
        after.read out = .ok text.toUTF8 ∧
        ∃ location prepared, after.locate out = .ok location ∧
          fs.Gains (·.IsAncestor out) prepared ∧
          after = prepared.insert location (.file text.toUTF8) ∧
          ∀ other, other ≠ location → after.file? other = fs.file? other) ∧
      (grammar.generate target package out :
        StateM FileSystem (Logged GenerationError Unit)).run after = (report, after)) := by
  rcases generate_cases ran with ⟨error, failed, notIo, rfl⟩ | ⟨path, cause, failed, gains⟩ |
      ⟨succeeded, noDirectory, extension, text, made, writing⟩
  · refine ⟨fun _ _ _ => rfl, ?_, ?_⟩
    · intro path cause failed'
      exact absurd (Except.error.inj (failed.symm.trans failed')) (notIo path cause)
    · intro succeeded
      cases failed.symm.trans succeeded
  · refine ⟨?_, fun _ _ _ => ⟨gains.file?, gains⟩, ?_⟩
    · intro error failed' notIo
      exact absurd (Except.error.inj (failed'.symm.trans failed)) (notIo path cause)
    · intro succeeded
      cases failed.symm.trans succeeded
  · refine ⟨?_, ?_, fun _ => ⟨noDirectory, extension, ⟨text, made, ?_⟩, ?_⟩⟩
    · intro error failed
      cases succeeded.symm.trans failed
    · intro path cause failed
      cases succeeded.symm.trans failed
    · obtain ⟨prepared, preparing, written⟩ := writeText_eq_ok_iff.mp writing
      have gains := prepareParent_gains out fs
      rw [preparing] at gains
      obtain ⟨location, -, rfl, located, -⟩ := FileSystem.exists_location_of_write written
      refine ⟨FileSystem.read_of_write written, location, prepared, located, gains, rfl, ?_⟩
      intro other apart
      rw [← gains.file? other]
      exact prepared.file?_insert_of_ne apart _
    · have again := generate_of_written (isDirectory_of_writeText writing) extension made
        (writeText_again writing)
      rw [generate_of_written noDirectory extension made writing] at ran
      cases ran
      exact again

/-- A missing directory on the way, and a file beside it. -/
theorem generate_checks_before_writing_paint :
    let grammar : Grammar := ⟨[("Color", ["blue", "red"])], [("Paint", ["paint it $Color:tone"])]⟩
    let out : Path := ⟨"src/voice/paint.rs"⟩
    let fs : FileSystem := (FileSystem.withWorkingDirectory ["home"]).insert ["home", "src"] .directory
    let fs := fs.insert ["home", "notes"] (.file "red".toUTF8)
    let done := (grammar.generate .rust none out :
      StateM FileSystem (Logged GenerationError Unit)).run fs
    done.1.outcome = .ok () ∧ fs.isDirectory ⟨"src/voice"⟩ = false ∧
    done.2.file? ["home", "notes"] = some "red".toUTF8 ∧
    (∃ text, (grammar.decoderText .rust none).outcome = .ok text ∧
      done.2.read out = .ok text.toUTF8) ∧
    (grammar.generate .rust none out :
      StateM FileSystem (Logged GenerationError Unit)).run done.2 = done := by
  intro grammar out start fs done
  have succeeded : done.1.outcome = .ok () := by decide +kernel
  have missing : fs.isDirectory ⟨"src/voice"⟩ = false := by decide +kernel
  have located : done.2.locate out = .ok ["home", "src", "voice", "paint.rs"] := by decide +kernel
  obtain ⟨-, -, ok⟩ := generate_checks_before_writing (rfl : _ = (done.1, done.2))
  obtain ⟨-, -, ⟨text, made, held, location, _, located', -, -, others⟩, again⟩ := ok succeeded
  cases located.symm.trans located'
  exact ⟨succeeded, missing, others _ (by decide), ⟨text, made, held⟩, again⟩

/-- A directory made on the way stays when the name of the file is too long. -/
example :
    let out : Path := ⟨"gen/" ++ String.ofList (List.replicate 256 'a') ++ ".rs"⟩
    let done := (empty.generate .rust none out :
      StateM FileSystem (Logged GenerationError Unit)).run ⟨[], []⟩
    done.1.outcome = .error (.io out .nameTooLong) ∧ done.2 = ⟨[], [(["gen"], .directory)]⟩ := by
  decide +kernel

end VoiceGrammar.Grammar
