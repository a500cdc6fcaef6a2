import DartBindings.Proofs.Declaration.SourceTree
import DartBindings.Proofs.Files.Tree
import DartBindings.Proofs.Generator.Printing
import DartBindings.Proofs.Removal
import DartBindings.Proofs.Results

/-!
What a run of a generator comes to: the entities that it collects are those of both source trees,
merged and without the removals, and at most one file changes, close to the end.

Names with stray bytes break a run off where they are to be printed, and code with stray bytes
where it is to be written. Of the files only the one to be written has been touched by then.
-/

set_option autoImplicit false

namespace DartBindings

open Text Bridge Declaration Files

/-! ## Scanning -/

section Scan

variable {generator : Generator} {world : World} {directory : RawText}

theorem Generator.scan_of_quiet (quiet : generator.isVerbose = false) (platform : Platform)
    (directory : Option RawText) : (generator.scan world platform directory).printed = [] := by
  unfold Generator.scan
  simp only [Generator.progress_of_quiet quiet, Generator.announce_of_quiet quiet]
  split
  · rfl
  · split <;> rfl

/-- A source tree that is there can be announced, if it is to be. -/
def Generator.Announces (generator : Generator) (world : World) (directory : RawText) : Prop :=
  world.isDirectory (Path.ofText directory) = true → generator.isVerbose = true →
    directory.IsText

theorem Generator.announce_directory_iff (start : String) :
    (generator.announce [RawText.ofString start ++ directory]).2 = .ok () ↔
      (generator.isVerbose = true → directory.IsText) := by
  rw [Generator.announce_result_iff, List.forall_mem_singleton, RawText.isText_append,
    and_iff_right (RawText.isText_ofString _)]

/-- A scan finds a source tree that is there, and yields what it declares. -/
theorem Generator.scan_result (announces : generator.Announces world directory)
    (platform : Platform) :
    (generator.scan world platform (some directory)).result =
      ((declaredBelow platform.dialect world (Path.ofText directory)).map fun entities =>
        if world.isDirectory (Path.ofText directory) then some entities else none).mapError
          Failure.read := by
  unfold Generator.scan
  cases there : world.isDirectory (Path.ofText directory) with
  | false =>
      simp only [Option.filter_some, there, Bool.false_eq_true, ↓reduceIte]
      rw [declaredBelow_of_missing there]
      rfl
  | true =>
      simp only [Option.filter_some, there, ↓reduceIte, ← extractDirectory_result]
      split
      · rename_i printed failure failed
        have announced := (Generator.announce_directory_iff
          ("Scanning " ++ platform.label ++ ": ")).mpr (announces there)
        rw [failed] at announced
        cases announced
      · cases (extractDirectory platform.dialect world (Path.ofText directory)).result <;> rfl

theorem Generator.announces_of_scan {platform : Platform} {found : Option (List Entity)}
    (done : (generator.scan world platform (some directory)).result = .ok found) :
    generator.Announces world directory := by
  intro there
  unfold Generator.scan at done
  simp only [Option.filter_some, there, ↓reduceIte] at done
  split at done
  · cases done
  · rename_i printed announced
    exact (Generator.announce_directory_iff _).mp (congrArg Prod.snd announced)

theorem getD_found {entities : List Entity} {root : Path} {dialect : Dialect}
    (declared : declaredBelow dialect world root = .ok entities) :
    (if world.isDirectory root then some entities else none).getD [] = entities := by
  split
  · rfl
  · rename_i missing
    rw [declaredBelow_of_missing (Bool.eq_false_iff.mpr missing)] at declared
    cases declared
    rfl

end Scan

/-! ## Collecting -/

section Collect

variable [Regex.CharacterNames] {generator : Generator} {world : World} {kotlin swift : RawText}
  {ignoreMissing : Bool}

theorem Generator.collect_world (generator : Generator) (world : World)
    (kotlin swift : Option RawText) (ignoreMissing : Bool) :
    (generator.collect world kotlin swift ignoreMissing).world = world := by
  unfold Generator.collect
  dsimp only
  repeat' split
  all_goals rfl

theorem Generator.collect_of_quiet (quiet : generator.isVerbose = false)
    (kotlin swift : Option RawText) :
    (generator.collect world kotlin swift ignoreMissing).printed = [] := by
  unfold Generator.collect
  simp only [Generator.scan_of_quiet quiet, List.append_nil]
  repeat' split
  all_goals rfl

theorem Generator.announces_of_collect {entities : List Entity}
    (done : (generator.collect world (some kotlin) (some swift) ignoreMissing).result =
      .ok entities) :
    generator.Announces world kotlin ∧ generator.Announces world swift := by
  unfold Generator.collect at done
  dsimp only at done
  split at done
  · cases done
  · rename_i first
    split at done
    · cases done
    · rename_i second
      exact ⟨Generator.announces_of_scan first, Generator.announces_of_scan second⟩

/-- The entities of both source trees, merged, without those that removals are of. -/
def merged (removals : List Removal) (android ios : List Entity) : List Entity :=
  withoutCovered removals (merge android ios).1

/-- With removals that can be read, a run that does not miss its sources and can announce them
collects what both trees declare; it fails exactly if one of them cannot be read. -/
theorem Generator.collect_result
    (present : ignoreMissing = true ∨ world.isDirectory (Path.ofText kotlin) = true ∨
      world.isDirectory (Path.ofText swift) = true)
    (valid : ∀ removal ∈ generator.removals, removal.IsValid)
    (announces : generator.Announces world kotlin ∧ generator.Announces world swift) :
    (generator.collect world (some kotlin) (some swift) ignoreMissing).result =
      ((declaredBelow .kotlin world (Path.ofText kotlin)).bind fun android =>
        (declaredBelow .swift world (Path.ofText swift)).map fun ios =>
          merged generator.removals android ios).mapError Failure.read := by
  have first := Generator.scan_result announces.1 .android
  have second := Generator.scan_result announces.2 .ios
  change _ = ((declaredBelow .kotlin world _).map _).mapError _ at first
  change _ = ((declaredBelow .swift world _).map _).mapError _ at second
  unfold Generator.collect
  dsimp only
  rw [first, second]
  cases here : declaredBelow .kotlin world (Path.ofText kotlin) with
  | error cause => rfl
  | ok android =>
      cases there : declaredBelow .swift world (Path.ofText swift) with
      | error cause => rfl
      | ok ios =>
          dsimp only [Except.map, Except.mapError]
          rw [getD_found here, getD_found there, removeFrom_of_valid valid, if_neg]
          · rfl
          · rcases present with ignored | found | found
            · simp [ignored]
            · simp [found]
            · simp [found]

end Collect

/-! ## Writing -/

section Write

variable {world : World}

/-- A file is not touched, or it is opened and holds what the text is encoded as, if it is. -/
theorem writeBelow_cases (placed : world.IsPlaced) (path : Path) (text : RawText) :
    let after := (writeBelow world path text).1
    let result := (writeBelow world path text).2
    (world.Keeps after ∧ ∃ error, result = .error (.file error)) ∨
      world.Writes path (text.encode.toOption.getD []) after ∧
        (∀ error, result ≠ .error (.file error)) ∧ (result = .ok () ↔ text.IsText) := by
  have keeps := World.makeDirectories_keeps placed path.parent
  unfold writeBelow
  cases made : world.makeDirectories path.parent with
  | mk middle outcome =>
      rw [made] at keeps
      cases outcome with
      | error error => exact .inl ⟨keeps, error, rfl⟩
      | ok =>
          dsimp only
          cases written : middle.write path (text.encode.toOption.getD []) with
          | mk after outcome =>
              cases outcome with
              | error error =>
                  rw [World.write_failed written]
                  exact .inl ⟨keeps, error, rfl⟩
              | ok =>
                  refine .inr ⟨keeps.writes (World.write_writes (keeps.isPlaced placed) written),
                    ?_⟩
                  rw [← RawText.encode_isOk_iff]
                  cases text.encode with
                  | error error =>
                      exact ⟨nofun, nofun, fun ⟨bytes, encoded⟩ => nomatch encoded⟩
                  | ok bytes => exact ⟨nofun, fun _ => ⟨bytes, rfl⟩, fun _ => rfl⟩

theorem writeBelow_writes (placed : world.IsPlaced) {path : Path} {code : RawText} {after : World}
    (wrote : writeBelow world path code = (after, .ok ())) :
    ∃ text, code = RawText.ofString text ∧ world.Writes path (encodeUtf8 text) after := by
  rcases writeBelow_cases placed path code with ⟨-, error, failed⟩ | ⟨writes, -, plain⟩
  · rw [wrote] at failed
    cases failed
  · rw [wrote] at writes plain
    obtain ⟨text, rfl⟩ := RawText.isText_iff.mp (plain.mp rfl)
    refine ⟨text, rfl, ?_⟩
    rwa [RawText.encode, RawText.toString_ofString] at writes

end Write

/-! ## Generating -/

section Generate

variable [Regex.CharacterNames] {generator : Generator} {world : World}
  {kotlin swift output : Option RawText} {ignoreMissing : Bool} {entities : List Entity}

theorem Generator.generate_of_failed {cause : Failure}
    (failed : (generator.collect world kotlin swift ignoreMissing).result = .error cause) :
    let run := generator.generate world kotlin swift output ignoreMissing
    run.world = world ∧ run.result = .error cause := by
  dsimp only
  rw [Generator.generate, failed]
  exact ⟨generator.collect_world world kotlin swift ignoreMissing, rfl⟩

/-- Without a file to write, a run ends with printing the library, if it can be printed. -/
theorem Generator.generate_of_printed
    (collected : (generator.collect world kotlin swift ignoreMissing).result = .ok entities) :
    let run := generator.generate world kotlin swift none ignoreMissing
    let before := (generator.collect world kotlin swift ignoreMissing).printed ++
      generator.progress ("" :: summary entities)
    run.world = world ∧ run.printed = before ++ (printLines [generator.render entities]).1 ∧
      ∀ code, run.result = .ok code ↔ code = generator.render entities ∧ code.IsText := by
  dsimp only
  rw [Generator.generate, collected]
  dsimp only [Option.filter_none]
  refine ⟨generator.collect_world world kotlin swift ignoreMissing, rfl, fun code => ?_⟩
  rw [map_const_eq_ok_iff, printLines_result_iff, List.forall_mem_singleton]
  exact and_congr_right fun same => by rw [same]

/-- With a file to write, a run succeeds if writing does and the report on the file can be
printed. -/
theorem Generator.generate_of_written {name : RawText} (named : name ≠ [])
    (collected : (generator.collect world kotlin swift ignoreMissing).result = .ok entities) :
    let run := generator.generate world kotlin swift (some name) ignoreMissing
    let write := writeBelow world (Path.ofText name) (generator.render entities)
    run.world = write.1 ∧
      ∀ code, run.result = .ok code ↔ code = generator.render entities ∧ write.2 = .ok () ∧
        (generator.isVerbose = true → (Path.ofText name).text.IsText) := by
  have kept : (some name).filter (fun text => !text.isEmpty) = some name := by
    simpa using named
  dsimp only
  rw [Generator.generate, collected]
  dsimp only
  rw [kept]
  dsimp only
  split
  · rename_i failed
    rw [failed]
    exact ⟨rfl, fun code => ⟨nofun, fun ⟨_, wrote, _⟩ => nomatch wrote⟩⟩
  · rename_i done
    rw [done]
    refine ⟨rfl, fun code => ?_⟩
    rw [map_const_eq_ok_iff, Generator.announce_result_iff, closingLines_isText]
    exact and_congr_right fun _ => (and_iff_right rfl).symm

/-- What breaks a run off at its output file: the file can be opened, but the library has no
encoding, or the report on the file cannot be printed. -/
structure Generator.BreaksOff (generator : Generator) (world : World) (path : Path)
    (entities : List Entity) : Prop where
  opens : ∀ error, (writeBelow world path (generator.render entities)).2 ≠ .error (.file error)
  stray : ¬(generator.render entities).IsText ∨ generator.isVerbose = true ∧ ¬path.text.IsText

/-- A run that fails leaves every file as it was, unless it breaks off at its output file. -/
theorem Generator.generate_keeps (placed : world.IsPlaced) (named : output ≠ some [])
    {cause : Failure}
    (failed : (generator.generate world kotlin swift output ignoreMissing).result = .error cause) :
    world.Keeps (generator.generate world kotlin swift output ignoreMissing).world ∨
      ∃ name entities, output = some name ∧
        (generator.collect world kotlin swift ignoreMissing).result = .ok entities ∧
        generator.BreaksOff world (Path.ofText name) entities := by
  cases collected : (generator.collect world kotlin swift ignoreMissing).result with
  | error early =>
      rw [(Generator.generate_of_failed collected).1]
      exact .inl (.refl world)
  | ok entities =>
      cases output with
      | none =>
          rw [(Generator.generate_of_printed collected).1]
          exact .inl (.refl world)
      | some name =>
          obtain ⟨same, ends⟩ := Generator.generate_of_written (by simpa using named) collected
          rw [same]
          rcases writeBelow_cases placed (Path.ofText name) (generator.render entities) with
            ⟨keeps, -⟩ | ⟨-, opens, wrote⟩
          · exact .inl keeps
          · refine .inr ⟨name, entities, rfl, rfl, opens, ?_⟩
            by_contra fine
            rw [not_or, not_not, not_and, not_not, ← wrote] at fine
            have done := (ends _).mpr ⟨rfl, fine⟩
            rw [done] at failed
            cases failed

/-- A run that breaks off at its output file fails and leaves the file behind, empty if the library
has no encoding. -/
theorem Generator.generate_of_breaksOff (placed : world.IsPlaced) {name : RawText}
    (named : name ≠ [])
    (collected : (generator.collect world kotlin swift ignoreMissing).result = .ok entities)
    (breaksOff : generator.BreaksOff world (Path.ofText name) entities) :
    let run := generator.generate world kotlin swift (some name) ignoreMissing
    (∃ cause, run.result = .error cause) ∧
      world.Writes (Path.ofText name) ((generator.render entities).encode.toOption.getD [])
        run.world := by
  obtain ⟨same, ends⟩ := Generator.generate_of_written named collected
  rcases writeBelow_cases placed (Path.ofText name) (generator.render entities) with
    ⟨-, error, failed⟩ | ⟨writes, -, wrote⟩
  · exact absurd failed (breaksOff.opens error)
  · dsimp only
    rw [same]
    refine ⟨?_, writes⟩
    cases ended : (generator.generate world kotlin swift (some name) ignoreMissing).result with
    | error cause => exact ⟨cause, rfl⟩
    | ok code =>
        obtain ⟨-, written, shows⟩ := (ends code).mp ended
        rcases breaksOff.stray with noText | ⟨verbose, stray⟩
        · exact absurd (wrote.mp written) noText
        · exact absurd (shows verbose) stray

/-- A run that succeeds has rendered what it collected, and nothing but writing that has an effect
on the files. -/
theorem Generator.generate_done (named : output ≠ some []) {code : RawText}
    (done : (generator.generate world kotlin swift output ignoreMissing).result = .ok code) :
    let run := generator.generate world kotlin swift output ignoreMissing
    (∃ entities, (generator.collect world kotlin swift ignoreMissing).result = .ok entities ∧
      code = generator.render entities) ∧
    (output = none → code.IsText ∧ run.world = world) ∧
    ∀ name, output = some name →
      writeBelow world (Path.ofText name) code = (run.world, .ok ()) ∧
        (generator.isVerbose = true → (Path.ofText name).text.IsText) := by
  cases collected : (generator.collect world kotlin swift ignoreMissing).result with
  | error early =>
      rw [(Generator.generate_of_failed collected).2] at done
      cases done
  | ok entities =>
      cases output with
      | none =>
          obtain ⟨same, -, ends⟩ := Generator.generate_of_printed collected
          obtain ⟨rfl, plain⟩ := (ends code).mp done
          exact ⟨⟨entities, rfl, rfl⟩, fun _ => ⟨plain, same⟩, nofun⟩
      | some name =>
          obtain ⟨same, ends⟩ := Generator.generate_of_written (by simpa using named) collected
          obtain ⟨rfl, wrote, shows⟩ := (ends code).mp done
          refine ⟨⟨entities, rfl, rfl⟩, nofun, fun other stated => ?_⟩
          cases stated
          exact ⟨Prod.ext same.symm wrote, shows⟩

/-- A run that has collected entities succeeds if it can print their library, or write it and report
on the file. -/
theorem Generator.generate_succeeds (named : output ≠ some [])
    (collected : (generator.collect world kotlin swift ignoreMissing).result = .ok entities)
    (printed : output = none → (generator.render entities).IsText)
    (written : ∀ name, output = some name →
      (writeBelow world (Path.ofText name) (generator.render entities)).2 = .ok () ∧
        (generator.isVerbose = true → (Path.ofText name).text.IsText)) :
    (generator.generate world kotlin swift output ignoreMissing).result =
      .ok (generator.render entities) := by
  cases output with
  | none => exact ((Generator.generate_of_printed collected).2.2 _).mpr ⟨rfl, printed rfl⟩
  | some name =>
      exact ((Generator.generate_of_written (by simpa using named) collected).2 _).mpr
        ⟨rfl, written name rfl⟩

end Generate

end DartBindings
