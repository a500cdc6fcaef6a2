import DartBindings.CommandLine.Execution
import DartBindings.Proofs.Files.Path
import DartBindings.Proofs.Generator.Outcome

/-!
Tasks: what options and settings make of a project, and what becomes of the files when the task
is run. The paths of a task survive being handed on as texts.
-/

set_option autoImplicit false

namespace DartBindings.CommandLine

open Text Files Dart

/-- A value that is stated is one, or there is none to be used. -/
theorem stated_cases (value : Option RawText) (otherwise : RawText) :
    stated value otherwise = otherwise ∨ value = some (stated value otherwise) := by
  unfold stated
  split
  · split
    · exact .inl rfl
    · exact .inr rfl
  · exact .inl rfl

theorem isText_stated {value : Option RawText} (plain : ∀ text, value = some text → text.IsText)
    (otherwise : String) : (stated value otherwise).IsText := by
  rcases stated_cases value otherwise with same | given
  · rw [same]
    exact RawText.isText_ofString otherwise
  · exact plain _ given

/-! ## The root of a project -/

section Root

variable {world : World} {root : Path}

variable {holds : RawText → Prop}

/-- What holds of all components holds of those that they lead to. -/
theorem forall_resolveParts {location : Location} {parts : List RawText}
    (above : ∀ part ∈ location, holds part) (within : ∀ part ∈ parts, holds part) :
    ∀ part ∈ resolveParts location parts, holds part := by
  induction parts generalizing location with
  | nil => exact above
  | cons first rest ih =>
      obtain ⟨here, later⟩ := List.forall_mem_cons.mp within
      rw [resolveParts]
      split
      · exact ih (fun part member => above part ((List.dropLast_sublist location).subset member))
          later
      · refine ih (fun part member => ?_) later
        rcases List.mem_append.mp member with before | last
        · exact above part before
        · exact List.mem_singleton.mp last ▸ here

theorem forall_projectRoot? (named : ∀ part ∈ world.directory, holds part)
    {start : Option RawText} (within : ∀ part ∈ (Path.ofText (start.getD [])).parts, holds part)
    (found : world.projectRoot? start = some root) : ∀ part ∈ root.parts, holds part := by
  unfold World.projectRoot? at found
  obtain ⟨location, first, rfl⟩ := Option.map_eq_some_iff.mp found
  obtain ⟨n, -, rfl⟩ := List.mem_map.mp (List.mem_of_find?_eq_some first)
  refine fun part member => forall_resolveParts ?_ within part (List.mem_of_mem_take member)
  cases (Path.ofText (start.getD [])).anchor with
  | relative => exact named
  | root | doubleRoot => exact fun part member => absurd member List.not_mem_nil

/-- What holds of the components of the current directory and of those of a stated root holds of
those of the root of the project. -/
theorem forall_projectRoot {options : Options} (named : ∀ part ∈ world.directory, holds part)
    (within : ∀ text, options.projectRoot = some text →
      ∀ part ∈ (Path.ofText text).parts, holds part)
    (found : projectRoot world options = .ok root) : ∀ part ∈ root.parts, holds part := by
  unfold projectRoot at found
  split at found
  · split at found
    · rename_i nearest
      cases found
      exact forall_projectRoot? named (fun part member => absurd member List.not_mem_nil) nearest
    · cases found
  · rename_i named
    dsimp only at found
    split at found
    · cases found
      exact within _ ((stated_cases options.projectRoot []).resolve_left named)
    · cases found

theorem isProper_projectRoot (named : ∀ part ∈ world.directory, IsComponent part)
    {options : Options} (found : projectRoot world options = .ok root) : root.IsProper :=
  forall_projectRoot named (fun text _ => isProper_ofText text) found

end Root

/-! ## Making a task -/

section Task

variable {options : Options} {settings : Settings} {root : Path}

theorem addTypes (generator : Generator) (types : List (String × String)) :
    types.foldl (fun generator (source, target) => generator.addType source target) generator =
      { generator with
        conventions :=
          { generator.conventions with
            types := types.foldl (fun mapping (source, target) => mapping.add source target)
              generator.conventions.types } } := by
  induction types generalizing generator with
  | nil => rfl
  | cons entry rest ih =>
      rw [List.foldl_cons, ih]
      rfl

theorem addRemovals (generator : Generator) (removals : List Removal) :
    removals.foldl Generator.addRemoval generator =
      { generator with removals := generator.removals ++ removals } := by
  induction removals generalizing generator with
  | nil => rw [List.foldl_nil, List.append_nil]
  | cons removal rest ih =>
      rw [List.foldl_cons, ih, Generator.addRemoval, List.append_assoc, List.singleton_append]

/-- The types that settings register, in their order. -/
def registered (settings : Settings) : TypeMapping :=
  settings.types.foldl (fun mapping (source, target) => mapping.add source target) .empty

theorem Task.of_generator (options : Options) (settings : Settings) (root : Path) :
    (Task.of options settings root).generator =
      { conventions := ⟨registered settings, options.eventBase.getD settings.eventBase⟩
        channel := stated options.channel settings.channel
        isVerbose := !(options.quiet || stated options.output settings.outputFile == "-")
        removals := settings.removals } := by
  unfold Task.of
  dsimp only
  rw [addRemovals, addTypes]
  rfl

theorem Task.of_output (options : Options) (settings : Settings) (root : Path) :
    (Task.of options settings root).output =
      if stated options.output settings.outputFile = "-" then none
      else some (root.join (Path.ofText (stated options.output settings.outputFile))) := by
  unfold Task.of
  simp only [beq_iff_eq]

/-- The text of a path below the root reads back as the path. -/
theorem ofText_join_text (proper : root.IsProper) (text : RawText) :
    Path.ofText (root.join (Path.ofText text)).text = root.join (Path.ofText text) :=
  (proper.join (isProper_ofText text)).ofText_text

theorem join_text_ne (proper : root.IsProper) (text : RawText) :
    (root.join (Path.ofText text)).text ≠ [] :=
  (proper.join (isProper_ofText text)).text_ne

theorem ofText_output_text (proper : root.IsProper) {path : Path}
    (output : (Task.of options settings root).output = some path) :
    Path.ofText path.text = path := by
  rw [Task.of_output] at output
  split at output
  · cases output
  · cases output
    exact ofText_join_text proper _

/-- The path that a task writes to, if any, has a text. -/
def Task.IsNamed (task : Task) : Prop :=
  ∀ path, task.output = some path → path.text ≠ []

theorem Task.IsNamed.output_ne {task : Task} (named : task.IsNamed) :
    task.output.map Path.text ≠ some [] := by
  intro empty
  obtain ⟨path, stated, blank⟩ := Option.map_eq_some_iff.mp empty
  exact named path stated blank

theorem Task.IsNamed.of (proper : root.IsProper) : (Task.of options settings root).IsNamed := by
  intro path stated
  rw [Task.of_output] at stated
  split at stated
  · cases stated
  · cases stated
    exact join_text_ne proper _

end Task

/-! ## Running a task -/

theorem printedText_singleton (line : String) : printedText [line] = line ++ "\n" := by
  simp [printedText, String.join]

section Run

variable [Regex.CharacterNames] {world : World} {task : Task}

/-- What a task collects from both source trees. -/
def Task.collection (task : Task) (world : World) : Run (List Bridge.Entity) :=
  task.generator.collect world (some task.kotlin.text) (some task.swift.text) task.ignoreMissing

/-- The run of the generator that a task consists in. -/
def Task.generation (task : Task) (world : World) : Run RawText :=
  task.generator.generate world (some task.kotlin.text) (some task.swift.text)
    (task.output.map Path.text) task.ignoreMissing

theorem Task.run_world (task : Task) (world : World) :
    (task.run world).world = (task.generation world).world := by
  unfold Task.run
  dsimp only
  split <;> rfl

theorem Task.run_output (task : Task) (world : World) :
    (task.run world).output =
      printedText (task.generator.progress banner ++ (task.generation world).printed) := by
  unfold Task.run
  dsimp only
  split <;> rfl

theorem Task.run_ending_iff (task : Task) (world : World) :
    (task.run world).ending = .exit 0 ↔ ∃ code, (task.generation world).result = .ok code := by
  unfold Task.run Task.generation
  dsimp only
  split
  · rename_i code done
    exact ⟨fun _ => ⟨code, done⟩, fun _ => rfl⟩
  · rename_i failure failed
    rw [failed]
    exact ⟨nofun, nofun⟩

/-- A task that fails leaves every file as it was, unless it breaks off at its output file. -/
theorem Task.run_keeps (placed : world.IsPlaced) (named : task.IsNamed)
    (failed : (task.run world).ending ≠ .exit 0) :
    world.Keeps (task.run world).world ∨ ∃ path entities, task.output = some path ∧
      (task.collection world).result = .ok entities ∧
      task.generator.BreaksOff world (Path.ofText path.text) entities := by
  rw [Task.run_world]
  cases ended : (task.generation world).result with
  | ok code => exact absurd ((task.run_ending_iff world).mpr ⟨code, ended⟩) failed
  | error cause =>
      rcases Generator.generate_keeps placed named.output_ne ended with
        keeps | ⟨name, entities, stated, collected, breaksOff⟩
      · exact .inl keeps
      · obtain ⟨path, output, rfl⟩ := Option.map_eq_some_iff.mp stated
        exact .inr ⟨path, entities, output, collected, breaksOff⟩

/-- A task that breaks off at its output file fails and leaves the file behind. -/
theorem Task.run_of_breaksOff (placed : world.IsPlaced) (named : task.IsNamed) {path : Path}
    {entities : List Bridge.Entity} (output : task.output = some path)
    (collected : (task.collection world).result = .ok entities)
    (breaksOff : task.generator.BreaksOff world (Path.ofText path.text) entities) :
    (task.run world).ending = .exit 1 ∧
      world.Writes (Path.ofText path.text)
        ((task.generator.render entities).encode.toOption.getD []) (task.run world).world := by
  obtain ⟨⟨cause, failed⟩, writes⟩ :=
    Generator.generate_of_breaksOff placed (named path output) collected breaksOff
  rw [Task.run_world, Task.generation, output]
  refine ⟨?_, writes⟩
  unfold Task.run
  rw [output]
  dsimp only [Option.map_some]
  rw [failed]

/-- What becomes of the code of a task that succeeds. -/
theorem Task.run_done (named : task.IsNamed) {code : RawText}
    (ended : (task.generation world).result = .ok code) :
    (task.output = none → code.IsText ∧ (task.run world).world = world) ∧
    ∀ path, task.output = some path →
      writeBelow world (Path.ofText path.text) code = ((task.run world).world, .ok ()) ∧
        (task.generator.isVerbose = true → (Path.ofText path.text).text.IsText) := by
  obtain ⟨-, printed, written⟩ := Generator.generate_done named.output_ne ended
  rw [Task.run_world]
  refine ⟨fun none => printed ?_, fun path stated => written _ ?_⟩
  · rw [none]
    rfl
  · rw [stated]
    rfl

/-- A quiet task without an output file prints its code and nothing else. -/
theorem Task.run_output_of_quiet (quiet : task.generator.isVerbose = false)
    (standard : task.output = none) {code : RawText}
    (ended : (task.generation world).result = .ok code) :
    ∃ text, code = RawText.ofString text ∧ (task.run world).output = text ++ "\n" := by
  rw [Task.run_output, Generator.progress_of_quiet quiet, List.nil_append]
  unfold Task.generation at ended ⊢
  rw [standard, Option.map_none] at ended ⊢
  have named : (none : Option RawText) ≠ some [] := nofun
  obtain ⟨⟨entities, collected, rfl⟩, last, -⟩ := Generator.generate_done named ended
  obtain ⟨text, plain⟩ := RawText.isText_iff.mp (last rfl).1
  obtain ⟨-, printed, -⟩ := Generator.generate_of_printed collected
  rw [Generator.collect_of_quiet quiet, Generator.progress_of_quiet quiet, plain,
    printLines_ofString] at printed
  refine ⟨text, plain, ?_⟩
  rw [printed]
  exact printedText_singleton _

end Run

end DartBindings.CommandLine
