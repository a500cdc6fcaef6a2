import DartBindings.CommandLine.Options
import DartBindings.CommandLine.Usage
import DartBindings.Files.Listing
import DartBindings.Generator
import DartBindings.Settings

/-!
Executing the command on a world of files. What the arguments state goes before what the
settings file states, and that before the defaults. Relative directories and a relative output
file are seen from the root of the project, which is given or is the nearest one above the
current directory.
-/

set_option autoImplicit false

namespace DartBindings.CommandLine

open Text Files

variable [Regex.CharacterNames]

/-- How a command ends: with an exit code, or broken off by a settings file. -/
inductive Ending where
  | exit (code : Nat)
  | brokenOff (error : SettingsError)
  deriving DecidableEq, Repr

/-- The outcome of a command: what it prints, how it ends, and the files after it. -/
structure Outcome where
  output : String
  errors : String
  ending : Ending
  world : World

def printedText (lines : List String) : String :=
  String.join (lines.map fun line => line ++ "\n")

/-- The command fails with a report before it changes anything. -/
def Outcome.failed (world : World) (code : Nat) (report : String) : Outcome :=
  ⟨"", report, .exit code, world⟩

/-- The value that is stated, unless it is empty. -/
def stated (value : Option RawText) (otherwise : RawText) : RawText :=
  match value with
  | some text => if text.isEmpty then otherwise else text
  | none => otherwise

/-- What a run of the generator is given. -/
structure Task where
  generator : Generator
  kotlin : Path
  swift : Path
  /-- The file to be written; without one the library is printed. -/
  output : Option Path
  ignoreMissing : Bool
  deriving DecidableEq, Repr

/-- The task that options and settings make in a project. -/
def Task.of (options : Options) (settings : Settings) (root : Path) : Task :=
  let output := stated options.output settings.outputFile
  let toStandard := output == "-"
  let generator := Generator.new (stated options.channel settings.channel)
    (options.eventBase.getD settings.eventBase) (!(options.quiet || toStandard))
  let typed := settings.types.foldl (fun generator (source, target) =>
    generator.addType source target) generator
  { generator := settings.removals.foldl Generator.addRemoval typed
    kotlin := root.join (Path.ofText (stated options.kotlin settings.kotlinDirectory))
    swift := root.join (Path.ofText (stated options.swift settings.swiftDirectory))
    output := if toStandard then none else some (root.join (Path.ofText output))
    ignoreMissing := options.ignoreMissing }

/-- The lines above the progress of a run. -/
def banner : List String := [
  "Native Bridge - Code Generator",
  "========================================"]

def Task.run (task : Task) (world : World) : Outcome :=
  let run := task.generator.generate world (some task.kotlin.text) (some task.swift.text)
    (task.output.map Path.text) task.ignoreMissing
  let output := printedText (task.generator.progress banner ++ run.printed)
  let complaints := printedText run.complaints
  match run.result with
  | .ok _ => ⟨output, complaints, .exit 0, run.world⟩
  | .error failure =>
    ⟨output, complaints ++ "Error: " ++ failure.message.escaped ++ "\n", .exit 1, run.world⟩

/-- Why a command ends before a run. -/
inductive Obstacle where
  | settings (error : SettingsError)
  | missingRoot (root : Path)
  | noProject
  deriving DecidableEq, Repr

def settings (world : World) (options : Options) : Except Obstacle Settings :=
  match stated options.config [] with
  | [] => .ok .default
  | path =>
    match Settings.read world path with
    | .ok settings => .ok settings
    | .error error => .error (.settings error)

def projectRoot (world : World) (options : Options) : Except Obstacle Path :=
  match stated options.projectRoot [] with
  | [] =>
    match world.projectRoot? none with
    | some root => .ok root
    | none => .error .noProject
  | text =>
    let root := Path.ofText text
    if world.isDirectory root then .ok root else .error (.missingRoot root)

def task (world : World) (options : Options) : Except Obstacle Task := do
  let settings ← settings world options
  let root ← projectRoot world options
  return Task.of options settings root

/-- How a command ends that is kept from running. A settings file that is none breaks it off
without a report. -/
def Obstacle.outcome (world : World) : Obstacle → Outcome
  | .settings error =>
    if error.isForeign then ⟨"", "", .brokenOff error, world⟩
    else .failed world 1 ("Error reading config file: " ++ error.message.escaped ++ "\n")
  | .missingRoot root =>
    .failed world 1 ("Error: Project root not found: " ++ root.text.escaped ++ "\n")
  | .noProject => .failed world 1 ("Error: Could not find " ++ projectMarker.escaped ++ "\n")

def execute (world : World) (arguments : List RawText) : Outcome :=
  match readArguments arguments with
  | .error error =>
    .failed world 2 (usageText ++ commandName ++ ": error: " ++ error.message.escaped ++ "\n")
  | .ok .help => ⟨helpText, "", .exit 0, world⟩
  | .ok (.run options) =>
    match task world options with
    | .error obstacle => obstacle.outcome world
    | .ok task => task.run world

end DartBindings.CommandLine
