import DartBindings.Proofs.CommandLine.Options
import DartBindings.Proofs.CommandLine.Task
import DartBindings.Proofs.Dart.RawCode
import DartBindings.Proofs.Results

/-!
What a command comes to. It changes at most one file, the output file. What it writes or prints is
the library of what both source trees of the project declare, made as the options and the settings
say.

A command that fails leaves all files as they were, except that a byte without a character, which
only an argument or the name of a directory can bring in, is noticed no sooner than the output file
has been opened.
-/

set_option autoImplicit false

namespace DartBindings.CommandLine

open Text Files Dart Declaration

variable {world : World} {arguments : List RawText} {options : Options} {given : Settings}
  {root : Path}

/-! ## Before the run -/

theorem task_of_settings (found : settings world options = .ok given)
    (project : projectRoot world options = .ok root) :
    task world options = .ok (Task.of options given root) := by
  rw [task, found, project]
  rfl

theorem Obstacle.outcome_ending (world : World) (obstacle : Obstacle) :
    (obstacle.outcome world).ending ≠ .exit 0 := by
  cases obstacle with
  | settings error =>
      unfold Obstacle.outcome
      dsimp only
      split <;> exact nofun
  | missingRoot | noProject => exact nofun

theorem Obstacle.outcome_world (world : World) (obstacle : Obstacle) :
    (obstacle.outcome world).world = world := by
  cases obstacle with
  | settings error =>
      unfold Obstacle.outcome
      dsimp only
      split <;> rfl
  | missingRoot | noProject => rfl

section Run

variable [Regex.CharacterNames]

theorem execute_of_task {task : Task} (request : readArguments arguments = .ok (.run options))
    (made : CommandLine.task world options = .ok task) :
    execute world arguments = task.run world := by
  rw [execute, request]
  dsimp only
  rw [made]

/-- How the arguments and what they lead to decide on a command: it is refused, gives help, is kept
from running, or runs a task. -/
theorem execute_cases (world : World) (arguments : List RawText) :
    ((execute world arguments).world = world ∧ (execute world arguments).ending ≠ .exit 0) ∨
      (readArguments arguments = .ok .help ∧ (execute world arguments).world = world) ∨
      ∃ options given root, readArguments arguments = .ok (.run options) ∧
        settings world options = .ok given ∧ projectRoot world options = .ok root ∧
        execute world arguments = (Task.of options given root).run world := by
  cases request : readArguments arguments with
  | error error =>
      rw [execute, request]
      exact .inl ⟨rfl, nofun⟩
  | ok request' =>
      cases request' with
      | help =>
          rw [execute, request]
          exact .inr (.inl ⟨rfl, rfl⟩)
      | run options =>
          cases made : task world options with
          | error obstacle =>
              rw [execute, request]
              dsimp only
              rw [made]
              exact .inl ⟨obstacle.outcome_world world, obstacle.outcome_ending world⟩
          | ok task =>
              have run := execute_of_task request made
              unfold CommandLine.task at made
              cases found : settings world options with
              | error obstacle =>
                  rw [found] at made
                  cases made
              | ok given =>
                  cases project : projectRoot world options with
                  | error obstacle =>
                      rw [found, project] at made
                      cases made
                  | ok root =>
                      rw [found, project] at made
                      cases made
                      exact .inr (.inr ⟨options, given, root, rfl, found, project, run⟩)

end Run

/-! ## The files -/

section Files

variable [Regex.CharacterNames]

theorem Task.of_run_files (placed : world.IsPlaced) (proper : root.IsProper)
    (done : ((Task.of options given root).run world).ending = .exit 0) :
    let output := stated options.output given.outputFile
    let after := ((Task.of options given root).run world).world
    if output = "-" then after = world
    else ∃ content, world.Writes (root.join (Path.ofText output)) content after := by
  intro output after
  obtain ⟨code, ended⟩ := ((Task.of options given root).run_ending_iff world).mp done
  obtain ⟨same, written⟩ := Task.run_done (.of proper) ended
  rw [Task.of_output] at same written
  split
  · rename_i standard
    exact (same (if_pos standard)).2
  · rename_i file
    have wrote := (written _ (if_neg file)).1
    rw [ofText_join_text proper] at wrote
    obtain ⟨text, -, writes⟩ := writeBelow_writes placed wrote
    exact ⟨_, writes⟩

/-- A command breaks off at its output file: it has collected what both source trees declare and
can open the file, but the library has no encoding or the report on the file cannot be printed. -/
def BreaksOff (world : World) (arguments : List RawText) (path : Path) (code : RawText) : Prop :=
  ∃ options given root entities, readArguments arguments = .ok (.run options) ∧
    settings world options = .ok given ∧ projectRoot world options = .ok root ∧
    let task := Task.of options given root
    task.output = some path ∧ (task.collection world).result = .ok entities ∧
      task.generator.BreaksOff world path entities ∧ code = task.generator.render entities

/-- Stray bytes are in an argument or in the name of a directory, the current one or one above. -/
theorem BreaksOff.stray {path : Path} {code : RawText}
    (breaksOff : BreaksOff world arguments path code) :
    ¬((∀ argument ∈ arguments, argument.IsText) ∧ ∀ part ∈ world.directory, part.IsText) := by
  rintro ⟨plain, named⟩
  obtain ⟨options, given, root, entities, request, -, project, output, -, breaksOff, -⟩ := breaksOff
  have states (value : RawText) (stated : some value ∈ options.values) : value.IsText :=
    readArguments_isText plain request value stated
  rcases breaksOff.stray with code | ⟨-, report⟩
  · have eventBase : (options.eventBase.getD given.eventBase).IsText := by
      cases base : options.eventBase with
      | none => exact RawText.isText_ofString given.eventBase
      | some text => exact states text (by simp [Options.values, base])
    have channel : (stated options.channel given.channel).IsText :=
      isText_stated (fun text found => states text (by simp [Options.values, found])) given.channel
    rw [Task.of_generator] at code
    exact code (library_isText eventBase channel entities)
  · have above : ∀ part ∈ root.parts, part.IsText :=
      forall_projectRoot named (fun text found =>
        isText_of_mem_ofText (states text (by simp [Options.values, found]))) project
    have name : (stated options.output given.outputFile).IsText :=
      isText_stated (fun text found => states text (by simp [Options.values, found]))
        given.outputFile
    rw [Task.of_output] at output
    split at output
    · cases output
    · cases output
      exact report (Path.isText_text (Path.forall_join above (isText_of_mem_ofText name)))

/-- A command that does not succeed leaves all files as they were, unless it breaks off at its
output file; it leaves that one behind then, and has been given stray bytes. A command that gives
help or prints the library leaves all files as they were too. Any other changes or creates a single
file, the output file seen from the root of the project. -/
theorem execute_files (placed : world.IsPlaced) (named : ∀ part ∈ world.directory, IsComponent part)
    (arguments : List RawText) :
    let ending := (execute world arguments).ending
    let after := (execute world arguments).world
    (ending ≠ .exit 0 →
      world.tree.SameFilesBut none after.tree ∨ ∃ path code, BreaksOff world arguments path code) ∧
    (∀ path code, BreaksOff world arguments path code →
      ending = .exit 1 ∧ world.Writes path (code.encode.toOption.getD []) after ∧
        ¬((∀ argument ∈ arguments, argument.IsText) ∧ ∀ part ∈ world.directory, part.IsText)) ∧
    (ending = .exit 0 →
      (readArguments arguments = .ok .help ∧ after = world) ∨
      ∃ options given root, readArguments arguments = .ok (.run options) ∧
        settings world options = .ok given ∧ projectRoot world options = .ok root ∧
        let output := stated options.output given.outputFile
        if output = "-" then after = world
        else ∃ content, world.Writes (root.join (Path.ofText output)) content after) := by
  intro ending after
  refine ⟨fun failed => ?_, fun path code breaksOff => ?_, fun done => ?_⟩
  · rcases execute_cases world arguments with ⟨same, -⟩ | ⟨-, same⟩ |
      ⟨options, given, root, request, found, project, run⟩
    · exact .inl (same ▸ (World.Keeps.refl world).files)
    · exact .inl (same ▸ (World.Keeps.refl world).files)
    · have proper := isProper_projectRoot named project
      rw [show ending = _ from congrArg Outcome.ending run] at failed
      rcases Task.run_keeps placed (.of proper) failed with
        keeps | ⟨path, entities, output, collected, breaksOff⟩
      · rw [← run] at keeps
        exact .inl keeps.files
      · refine .inr ⟨path, _, options, given, root, entities, request, found, project, output,
          collected, ?_, rfl⟩
        rwa [ofText_output_text proper output] at breaksOff
  · have stray := breaksOff.stray
    obtain ⟨options, given, root, entities, request, found, project, output, collected, breaksOff,
      rfl⟩ := breaksOff
    have proper := isProper_projectRoot named project
    have run := execute_of_task request (task_of_settings found project)
    have same := ofText_output_text proper output
    obtain ⟨failed, writes⟩ :=
      Task.run_of_breaksOff placed (.of proper) output collected (same.symm ▸ breaksOff)
    rw [← run] at failed writes
    rw [same] at writes
    exact ⟨failed, writes, stray⟩
  · rcases execute_cases world arguments with ⟨-, failed⟩ | ⟨help, same⟩ |
      ⟨options, given, root, request, found, project, run⟩
    · exact absurd done failed
    · exact .inl ⟨help, same⟩
    · refine .inr ⟨options, given, root, request, found, project, ?_⟩
      rw [show ending = _ from congrArg Outcome.ending run] at done
      have files := Task.of_run_files placed (isProper_projectRoot named project) done
      rw [← run] at files
      exact files

end Files

/-- The name of the output file ends in a byte without a character. The file is written, but it
cannot be reported. -/
theorem execute_files_unreported :
    let _ := Regex.asciiNames
    let world : World := ⟨⟨[(["pubspec.yaml"], .file [])]⟩, []⟩
    let output : RawText := [.char 'a', .stray 0x7F]
    let arguments : List RawText := ["--ignore-missing", "-o", output]
    world.IsPlaced ∧ (∀ part ∈ world.directory, IsComponent part) ∧
      (execute world arguments).ending = .exit 1 ∧
      ∃ path code, BreaksOff world arguments path code ∧
        world.Writes path (code.encode.toOption.getD []) (execute world arguments).world := by
  intro _ world output arguments
  have placed : world.IsPlaced := world.tree.isStanding_root
  have named : ∀ part ∈ world.directory, IsComponent part := nofun
  obtain ⟨failed, created⟩ : (execute world arguments).ending = .exit 1 ∧
      ((execute world arguments).world.tree.entry? [output]).map Entry.isDirectory = some false := by
    decide +kernel
  have changed : ¬world.tree.SameFilesBut none (execute world arguments).world.tree := by
    intro same
    obtain ⟨entry, there, isFile⟩ := Option.map_eq_some_iff.mp created
    cases entry with
    | directory => cases isFile
    | file content =>
        have vacant : world.tree.entry? [output] = none := by decide +kernel
        have before := (same [output] content nofun).mp there
        rw [vacant] at before
        cases before
  obtain ⟨frame, breaks, -⟩ := execute_files placed named arguments
  obtain ⟨path, code, breaksOff⟩ := (frame (failed ▸ nofun)).resolve_left changed
  exact ⟨placed, named, failed, path, code, breaksOff, (breaks path code breaksOff).2.1⟩

/-- The channel ends in a byte without a character, so the library has no encoding. The command
fails and leaves an empty file. -/
theorem execute_stray_channel :
    let _ := Regex.asciiNames
    let source := "@NativeBridge\nclass A \x7b\n  fun f() \x7b\n  \x7d\n\x7d\n"
    let kotlin : Location := ["android", "app", "src", "main", "kotlin"]
    let world : World :=
      ⟨⟨(["pubspec.yaml"], .file []) ::
        (kotlin ++ [RawText.ofString "A.kt"], .file (encodeUtf8 source)) ::
          kotlin.inits.map fun above => (above, .directory)⟩, []⟩
    let outcome := execute world ["--channel", [.char 'a', .stray 0x7F]]
    let output : Location := ["lib", "native_bridge.g.dart"]
    outcome.ending = .exit 1 ∧ world.tree.entry? output = none ∧
      outcome.world.tree.entry? output = some (.file []) := by
  decide +kernel

/-! ## The library -/

/-- A path that an option or else a setting states, seen from the root of the project. -/
def projectPath (root : Path) (option : Option RawText) (setting : String) : Path :=
  root.join (Path.ofText (option.getD setting))

/-- The library of what both source trees of a project declare. What an option states goes before
what the settings state. -/
def projectLibrary [Regex.CharacterNames] (world : World) (options : Options) (given : Settings)
    (root : Path) : Except ReadError RawText := do
  let android ← declaredBelow .kotlin world (projectPath root options.kotlin given.kotlinDirectory)
  let ios ← declaredBelow .swift world (projectPath root options.swift given.swiftDirectory)
  return library ⟨registered given, options.eventBase.getD given.eventBase⟩
    (options.channel.getD given.channel) (merged given.removals android ios)

theorem stated_eq_getD {value : Option RawText} (full : value ≠ some []) (otherwise : RawText) :
    stated value otherwise = value.getD otherwise := by
  cases value with
  | none => rfl
  | some text =>
      have nonempty : text ≠ [] := fun empty => full (congrArg some empty)
      simp [stated, nonempty]

/-- None of the options that have a text for a value has an empty one. -/
structure Options.Full (options : Options) : Prop where
  kotlin : options.kotlin ≠ some []
  swift : options.swift ≠ some []
  output : options.output ≠ some []
  channel : options.channel ≠ some []

/-- The names that a command shows unless it is quiet can be printed: those of the source trees
that are there, and that of the output file. -/
structure Options.CanShow (options : Options) (world : World) (given : Settings) (root : Path) :
    Prop where
  kotlin : world.isDirectory (projectPath root options.kotlin given.kotlinDirectory) = true →
    (projectPath root options.kotlin given.kotlinDirectory).text.IsText
  swift : world.isDirectory (projectPath root options.swift given.swiftDirectory) = true →
    (projectPath root options.swift given.swiftDirectory).text.IsText
  output : (projectPath root options.output given.outputFile).text.IsText

/-! ### The task of full options -/

theorem ofText_projectPath_text (proper : root.IsProper) (option : Option RawText)
    (setting : String) :
    Path.ofText (projectPath root option setting).text = projectPath root option setting :=
  ofText_join_text proper _

theorem join_stated {option : Option RawText} (full : option ≠ some []) (setting : String) :
    root.join (Path.ofText (stated option setting)) = projectPath root option setting := by
  rw [stated_eq_getD full, projectPath]

section Full

variable (full : options.Full)

include full

theorem Task.of_kotlin :
    (Task.of options given root).kotlin = projectPath root options.kotlin given.kotlinDirectory :=
  join_stated full.kotlin _

theorem Task.of_swift :
    (Task.of options given root).swift = projectPath root options.swift given.swiftDirectory :=
  join_stated full.swift _

theorem Task.of_output_of_full :
    (Task.of options given root).output =
      if options.output.getD given.outputFile = "-" then none
      else some (projectPath root options.output given.outputFile) := by
  rw [Task.of_output, join_stated full.output, stated_eq_getD full.output]

theorem Task.of_isVerbose_iff :
    (Task.of options given root).generator.isVerbose = true ↔
      options.quiet = false ∧ options.output.getD given.outputFile ≠ "-" := by
  rw [Task.of_generator, stated_eq_getD full.output]
  simp

end Full

/-- A task can announce its source trees if their names can be printed, should it show them. -/
theorem Task.of_announces_iff (full : options.Full) (proper : root.IsProper) :
    let task := Task.of options given root
    let kotlin := projectPath root options.kotlin given.kotlinDirectory
    let swift := projectPath root options.swift given.swiftDirectory
    (task.generator.Announces world task.kotlin.text ∧
        task.generator.Announces world task.swift.text) ↔
      (task.generator.isVerbose = true →
        (world.isDirectory kotlin = true → kotlin.text.IsText) ∧
          (world.isDirectory swift = true → swift.text.IsText)) := by
  intro task kotlin swift
  rw [show task.kotlin = kotlin from Task.of_kotlin full,
    show task.swift = swift from Task.of_swift full]
  unfold Generator.Announces
  rw [ofText_projectPath_text proper, ofText_projectPath_text proper]
  tauto

section Library

variable [Regex.CharacterNames] (full : options.Full) (proper : root.IsProper)
  (present : options.ignoreMissing = true ∨
    world.isDirectory (projectPath root options.kotlin given.kotlinDirectory) = true ∨
    world.isDirectory (projectPath root options.swift given.swiftDirectory) = true)
  (valid : ∀ removal ∈ given.removals, removal.IsValid)

include full proper present valid

/-- What a task collects, rendered, is the library of the project, if its source trees can be
announced. -/
theorem Task.of_collect_render
    (announces : (Task.of options given root).generator.Announces world
        (Task.of options given root).kotlin.text ∧
      (Task.of options given root).generator.Announces world
        (Task.of options given root).swift.text) :
    let task := Task.of options given root
    (task.collection world).result.map task.generator.render =
      (projectLibrary world options given root).mapError Failure.read := by
  intro task
  have kotlin : Path.ofText task.kotlin.text =
      projectPath root options.kotlin given.kotlinDirectory := by
    rw [show task.kotlin = _ from Task.of_kotlin full]
    exact ofText_projectPath_text proper _ _
  have swift : Path.ofText task.swift.text =
      projectPath root options.swift given.swiftDirectory := by
    rw [show task.swift = _ from Task.of_swift full]
    exact ofText_projectPath_text proper _ _
  have generator := Task.of_generator options given root
  have removals : task.generator.removals = given.removals := congrArg Generator.removals generator
  rw [Task.collection, Generator.collect_result (by rwa [kotlin, swift]) (by rwa [removals])
    announces, kotlin, swift, removals, projectLibrary]
  cases declaredBelow .kotlin world (projectPath root options.kotlin given.kotlinDirectory) with
  | error cause => rfl
  | ok android =>
      cases declaredBelow .swift world (projectPath root options.swift given.swiftDirectory) with
      | error cause => rfl
      | ok ios =>
          change Except.ok (task.generator.render _) = Except.ok (library _ _ _)
          rw [show task.generator = _ from generator, Generator.render,
            ← stated_eq_getD full.channel]

/-- A task that succeeds yields the library of its project, which can be printed or written, and it
can show the names that it is to show. -/
theorem Task.of_generation_done {code : RawText}
    (done : ((Task.of options given root).generation world).result = .ok code) :
    let output := options.output.getD given.outputFile
    (options.quiet = false → output ≠ "-" → options.CanShow world given root) ∧
      projectLibrary world options given root = .ok code ∧
      if output = "-" then code.IsText
      else ∃ after,
        writeBelow world (projectPath root options.output given.outputFile) code =
          (after, .ok ()) := by
  intro output
  have destination : (Task.of options given root).output = if output = "-" then none else some _ :=
    Task.of_output_of_full full
  have same := ofText_projectPath_text proper options.output given.outputFile
  obtain ⟨⟨entities, collected, rendered⟩, printed, written⟩ :=
    Generator.generate_done (Task.IsNamed.of proper).output_ne done
  have announces := Generator.announces_of_collect collected
  have made := eq_ok_iff_of_map (Task.of_collect_render full proper present valid announces) code
  rw [destination] at printed written
  refine ⟨fun loud file => ?_, made.mpr ⟨entities, collected, rendered.symm⟩, ?_⟩
  · have shown : (Task.of options given root).generator.isVerbose = true :=
      (Task.of_isVerbose_iff full).mpr ⟨loud, file⟩
    obtain ⟨kotlin, swift⟩ := (Task.of_announces_iff full proper).mp announces shown
    rw [if_neg file] at written
    have report := (written _ rfl).2 shown
    rw [same] at report
    exact ⟨kotlin, swift, report⟩
  · split
    · rename_i standard
      exact (printed (by rw [if_pos standard]; rfl)).1
    · rename_i file
      rw [if_neg file] at written
      have wrote := (written _ rfl).1
      rw [same] at wrote
      exact ⟨_, wrote⟩

/-- A task succeeds if it can show the names that it is to show, and the library of its project can
be made and printed or written. -/
theorem Task.of_generation_succeeds {code : RawText}
    (shows : options.quiet = false → options.output.getD given.outputFile ≠ "-" →
      options.CanShow world given root)
    (library : projectLibrary world options given root = .ok code)
    (writes : if options.output.getD given.outputFile = "-" then code.IsText
      else ∃ after,
        writeBelow world (projectPath root options.output given.outputFile) code =
          (after, .ok ())) :
    ((Task.of options given root).generation world).result = .ok code := by
  have verbose : (Task.of options given root).generator.isVerbose = true ↔
      options.quiet = false ∧ options.output.getD given.outputFile ≠ "-" :=
    Task.of_isVerbose_iff full
  have announces := (Task.of_announces_iff full proper).mpr fun shown =>
    have names := shows (verbose.mp shown).1 (verbose.mp shown).2
    ⟨names.kotlin, names.swift⟩
  have made := eq_ok_iff_of_map (Task.of_collect_render full proper present valid announces) code
  obtain ⟨entities, collected, rfl⟩ := made.mp library
  refine Generator.generate_succeeds (Task.IsNamed.of proper).output_ne collected
    (fun none => ?_) (fun name stated => ?_)
  · rw [Task.of_output_of_full full] at none
    split at none
    · rename_i standard
      rwa [if_pos standard] at writes
    · cases none
  · rw [Task.of_output_of_full full] at stated
    split at stated
    · cases stated
    · rename_i file
      cases stated
      rw [if_neg file] at writes
      obtain ⟨after, wrote⟩ := writes
      rw [ofText_projectPath_text proper]
      exact ⟨congrArg Prod.snd wrote, fun shown => (shows (verbose.mp shown).1 file).output⟩

end Library

/-- A command that runs in a project yields the library of the project if that can be made and
printed or written, and so can be the names to be shown: this is what the output file holds then,
or all that is printed. -/
theorem execute_library [Regex.CharacterNames] (placed : world.IsPlaced)
    (named : ∀ part ∈ world.directory, IsComponent part)
    (request : readArguments arguments = .ok (.run options)) (full : options.Full)
    (found : settings world options = .ok given) (project : projectRoot world options = .ok root)
    (present : options.ignoreMissing = true ∨
      world.isDirectory (projectPath root options.kotlin given.kotlinDirectory) = true ∨
      world.isDirectory (projectPath root options.swift given.swiftDirectory) = true)
    (valid : ∀ removal ∈ given.removals, removal.IsValid) :
    let output := options.output.getD given.outputFile
    let path := projectPath root options.output given.outputFile
    let outcome := execute world arguments
    (outcome.ending = .exit 0 ↔
      (options.quiet = false → output ≠ "-" → options.CanShow world given root) ∧
        ∃ code, projectLibrary world options given root = .ok code ∧
          if output = "-" then code.IsText
          else ∃ after, writeBelow world path code = (after, .ok ())) ∧
    (outcome.ending = .exit 0 → ∃ text : String,
      projectLibrary world options given root = .ok (RawText.ofString text) ∧
        if output = "-" then outcome.output = text ++ "\n"
        else ∃ place, outcome.world.locate path = .ok (place, .file (encodeUtf8 text))) := by
  intro output path outcome
  have proper := isProper_projectRoot named project
  have run : outcome = (Task.of options given root).run world :=
    execute_of_task request (task_of_settings found project)
  have destination : (Task.of options given root).output = if output = "-" then none else some _ :=
    Task.of_output_of_full full
  refine ⟨?_, fun done => ?_⟩
  · rw [run, Task.run_ending_iff, ← exists_and_left]
    refine exists_congr fun code => ⟨Task.of_generation_done full proper present valid, ?_⟩
    rintro ⟨shows, library, writes⟩
    exact Task.of_generation_succeeds full proper present valid shows library writes
  · rw [run] at done ⊢
    obtain ⟨code, ended⟩ := ((Task.of options given root).run_ending_iff world).mp done
    obtain ⟨-, library, written⟩ := Task.of_generation_done full proper present valid ended
    split at written
    · rename_i standard
      have quiet : (Task.of options given root).generator.isVerbose = false := by
        rw [← Bool.not_eq_true, Task.of_isVerbose_iff full]
        exact fun shown => shown.2 standard
      obtain ⟨text, rfl, printed⟩ :=
        Task.run_output_of_quiet quiet (by rw [destination, if_pos standard]) ended
      exact ⟨text, library, by rwa [if_pos standard]⟩
    · rename_i file
      obtain ⟨-, writes⟩ := Task.run_done (.of proper) ended
      rw [destination, if_neg file] at writes
      have wrote := (writes _ rfl).1
      rw [ofText_projectPath_text proper] at wrote
      obtain ⟨text, rfl, place, holds, -⟩ := writeBelow_writes placed wrote
      exact ⟨text, library, by rw [if_neg file]; exact ⟨place, holds⟩⟩

/-- The settings file registers a type and removes a member, and one source tree is missing. -/
theorem execute_library_printed :
    let _ := Regex.asciiNames
    let source := "@NativeBridge class A \x7b fun f(): UUID \x7b\x7d fun g() \x7b\x7d \x7d"
    let file := "<bridge channel='c'><type from='UUID' to='Id'/><remove pattern='A.g'/></bridge>"
    let world : World :=
      ⟨⟨[(["pubspec.yaml"], .file []), (["b.xml"], .file (encodeUtf8 file)),
        (["kt"], .directory), (["kt", "A.kt"], .file (encodeUtf8 source))]⟩, []⟩
    let arguments : List RawText := ["-C", "b.xml", "--kotlin", "kt", "-o", "-"]
    let options : Options :=
      { Options.none with config := some "b.xml", kotlin := some "kt", output := some "-" }
    let given : Settings :=
      { Settings.default with
        channel := "c", types := [("UUID", "Id")], removals := [.named "A.g"] }
    world.IsPlaced ∧ (∀ part ∈ world.directory, IsComponent part) ∧
      readArguments arguments = .ok (.run options) ∧ options.Full ∧
      settings world options = .ok given ∧ projectRoot world options = .ok ⟨.root, []⟩ ∧
      world.isDirectory (projectPath ⟨.root, []⟩ options.kotlin given.kotlinDirectory) = true ∧
      (∀ removal ∈ given.removals, removal.IsValid) ∧
      (execute world arguments).ending = .exit 0 ∧
      ∃ text : String,
        projectLibrary world options given ⟨.root, []⟩ = .ok (RawText.ofString text) ∧
          (execute world arguments).output = text ++ "\n" := by
  intro _ source file world arguments options given
  have placed : world.IsPlaced := world.tree.isStanding_root
  have named : ∀ part ∈ world.directory, IsComponent part := nofun
  have request : readArguments arguments = .ok (.run options) :=
    ok_of_toOption (by decide +kernel)
  have full : options.Full := ⟨by decide, by decide, by decide, by decide⟩
  have found : settings world options = .ok given :=
    ok_of_toOption (by decide +kernel)
  have project : projectRoot world options = .ok ⟨.root, []⟩ :=
    ok_of_toOption (by decide +kernel)
  have there :
      world.isDirectory (projectPath ⟨.root, []⟩ options.kotlin given.kotlinDirectory) = true := by
    decide +kernel
  have valid : ∀ removal ∈ given.removals, removal.IsValid := by
    intro removal member
    rw [List.mem_singleton.mp member]
    trivial
  have done : (execute world arguments).ending = .exit 0 := by decide +kernel
  exact ⟨placed, named, request, full, found, project, there, valid, done,
    (execute_library placed named request full found project (.inr (.inl there)) valid).2 done⟩

end DartBindings.CommandLine
