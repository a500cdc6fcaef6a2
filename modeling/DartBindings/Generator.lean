import DartBindings.Bridge.Merge
import DartBindings.Dart.Library
import DartBindings.Declaration.SourceTree
import DartBindings.Removal

/-!
Generators: from two source trees to a Dart library, with the report on the way.

A generator holds what stays the same from run to run. A run yields the lines that it prints, its
warnings and conflicts, and either its result or the reason why there is none. Lines that were
printed before a failure stay printed, and warnings are printed only if the run gets that far.

Names that the system hands over can hold bytes without an encoding. A line with such a name is
not printed but ends the run; a report spells the bytes out.
-/

set_option autoImplicit false

namespace DartBindings

open Text Bridge Dart Declaration Files

variable [Regex.CharacterNames]

/-- What stays the same from run to run. -/
structure Generator where
  conventions : Conventions RawText
  channel : RawText
  isVerbose : Bool
  removals : List Removal
  deriving DecidableEq, Repr

def Generator.new (channel eventBase : RawText) (isVerbose : Bool) : Generator :=
  ⟨⟨.empty, eventBase⟩, channel, isVerbose, []⟩

def Generator.addType (generator : Generator) (source target : String) : Generator :=
  { generator with
    conventions :=
      { generator.conventions with types := generator.conventions.types.add source target } }

def Generator.addRemoval (generator : Generator) (removal : Removal) : Generator :=
  { generator with removals := generator.removals ++ [removal] }

inductive Failure where
  | read (cause : ReadError)
  | noSources (kotlin swift : Option RawText)
  | invalidPattern (cause : Regex.InvalidPattern)
  | file (error : FileError)
  | encoding (error : EncodeError)
  deriving DecidableEq, Repr

/-- A directory in a report; one that is not given has a name too. -/
def directoryText (directory : Option RawText) : RawText :=
  directory.getD "None"

def Failure.message : Failure → RawText
  | .read cause => cause.message
  | .noSources kotlin swift =>
    RawText.ofString "No native source directory found (Kotlin: " ++ directoryText kotlin
      ++ RawText.ofString ", Swift: " ++ directoryText swift ++ RawText.ofString ")"
  | .invalidPattern cause => cause.message
  | .file error => error.message
  | .encoding error => error.message

/-- The outcome of a run: what it prints, line by line, what it reports, the files after it, and
its result. -/
structure Run (α : Type) where
  printed : List String
  complaints : List String
  warnings : List Warning
  conflicts : List Conflict
  world : World
  result : Except Failure α

/-- The lines that are printed of these: those before the first one without an encoding. -/
def printLines : List RawText → List String × Except Failure Unit
  | [] => ([], .ok ())
  | line :: rest =>
    match line.toString with
    | .error error => ([], .error (.encoding error))
    | .ok text =>
      let (printed, result) := printLines rest
      (text :: printed, result)

def Generator.progress (generator : Generator) (lines : List String) : List String :=
  if generator.isVerbose then lines else []

/-- Progress with names in it that need not have an encoding. -/
def Generator.announce (generator : Generator) (lines : List RawText) :
    List String × Except Failure Unit :=
  if generator.isVerbose then printLines lines else ([], .ok ())

/-! ## Collecting -/

structure Platform where
  dialect : Dialect
  label : String
  language : String

def Platform.android : Platform := ⟨.kotlin, "Android", "Kotlin"⟩

def Platform.ios : Platform := ⟨.swift, "iOS", "Swift"⟩

/-- The outcome for one source tree: the entities, unless there is no such directory. -/
structure Scan where
  printed : List String
  warnings : List Warning
  result : Except Failure (Option (List Entity))

/-- Extracts one source tree. Its warnings count only if all of it can be read. -/
def Generator.scan (generator : Generator) (world : World) (platform : Platform)
    (directory : Option RawText) : Scan :=
  let existing := directory.filter fun text => world.isDirectory (Path.ofText text)
  match existing with
  | none =>
    ⟨generator.progress
      [platform.label ++ ": No " ++ platform.language ++ " source directory found"], [], .ok none⟩
  | some text =>
    match generator.announce [RawText.ofString ("Scanning " ++ platform.label ++ ": ") ++ text] with
    | (printed, .error failure) => ⟨printed, [], .error failure⟩
    | (printed, .ok ()) =>
      let extraction := extractDirectory platform.dialect world (Path.ofText text)
      match extraction.result with
      | .error cause => ⟨printed, [], .error (.read cause)⟩
      | .ok entities =>
        ⟨printed ++ generator.progress ["  Found " ++ toString entities.length ++ " class(es)"],
          extraction.warnings, .ok (some entities)⟩

/-- The line that a warning is printed on. -/
def complaint (message : RawText) : String :=
  "Warning: " ++ message.escaped

/-- Extracts both source trees and merges them, without what is to be removed. Unless missing
sources are to be ignored, one of the directories has to exist. -/
def Generator.collect (generator : Generator) (world : World) (kotlin swift : Option RawText)
    (ignoreMissing : Bool) : Run (List Entity) :=
  let android := generator.scan world .android kotlin
  match android.result with
  | .error failure => ⟨android.printed, [], [], [], world, .error failure⟩
  | .ok first =>
    let ios := generator.scan world .ios swift
    let printed := android.printed ++ ios.printed
    match ios.result with
    | .error failure => ⟨printed, [], android.warnings, [], world, .error failure⟩
    | .ok second =>
      let warnings := android.warnings ++ ios.warnings
      if first.isNone && second.isNone && !ignoreMissing then
        ⟨printed, [], warnings, [], world, .error (.noSources kotlin swift)⟩
      else
        let (merged, conflicts) := merge (first.getD []) (second.getD [])
        match removeFrom generator.removals merged with
        | .error cause => ⟨printed, [], warnings, conflicts, world, .error (.invalidPattern cause)⟩
        | .ok entities =>
          let complaints := warnings.map Warning.message
            ++ conflicts.map fun conflict => RawText.ofString conflict.message
          ⟨printed, complaints.map complaint, warnings, conflicts, world, .ok entities⟩

/-! ## Generating -/

def Generator.render (generator : Generator) (entities : List Entity) : RawText :=
  library generator.conventions generator.channel entities

/-- How native classes are marked, for a user who has marked none. -/
def markingHint : List String := [
  "Android - Add annotations to your Kotlin code:",
  "",
  "  @NativeBridge",
  "  class DeviceService \x7b",
  "      fun getModel(): String = Build.MODEL",
  "  \x7d",
  "",
  "iOS - Add @objc to your Swift methods:",
  "",
  "  class DeviceService: NSObject \x7b",
  "      @objc func getModel() -> String \x7b",
  "          return UIDevice.current.model",
  "      \x7d",
  "  \x7d"]

def entitySummary (entity : Entity) : List String :=
  ("  - " ++ entity.name ++ " [" ++ entity.origin.label ++ "] ("
      ++ toString entity.callables.length ++ " methods)")
    :: entity.callables.map fun callable => "      " ++ callable.describe

def summary (entities : List Entity) : List String :=
  if entities.isEmpty then ["No native classes found.", ""] ++ markingHint
  else
    ("Found " ++ toString entities.length ++ " native class(es):")
      :: entities.flatMap entitySummary

/-- A line of Dart that uses the member. -/
def usageLine (entity : Entity) (callable : Callable) : String :=
  let arguments := ", ".intercalate (callable.parameters.map fun _ => "'example'")
  let invocation := entity.name ++ "." ++ callable.name ++ "(" ++ arguments ++ ")"
  match callable.kind with
  | .call => "  final result = await " ++ invocation ++ ";"
  | .subscription => "  " ++ invocation ++ ".listen((value) \x7b \x7d);"

/-- The lines that show how to use the first member. -/
def usageHint (entities : List Entity) (output : Path) : List RawText :=
  match entities with
  | [] => []
  | entity :: _ =>
    match entity.callables with
    | [] => []
    | callable :: _ =>
      ["", "Usage in your Dart code:", "",
        RawText.ofString "  import '" ++ output.name ++ RawText.ofString "';", "",
        usageLine entity callable]

/-- The lines about a file that has been written. -/
def closingLines (entities : List Entity) (output : Path) : List RawText :=
  RawText.ofString "" :: (RawText.ofString "Generated: " ++ output.text)
    :: usageHint entities output

/-- Writes a file after creating the directories above it. It is opened before the text is
encoded, so a text without an encoding leaves it empty. -/
def writeBelow (world : World) (path : Path) (text : RawText) : World × Except Failure Unit :=
  match world.makeDirectories path.parent with
  | (world, .error error) => (world, .error (.file error))
  | (world, .ok ()) =>
    match world.write path (text.encode.toOption.getD []) with
    | (world, .error error) => (world, .error (.file error))
    | (world, .ok ()) => (world, (text.encode.map fun _ => ()).mapError .encoding)

/-- Generates the library of both source trees, and writes it to a file or, without one, prints
it. An empty name is that of no file. -/
def Generator.generate (generator : Generator) (world : World)
    (kotlin swift output : Option RawText) (ignoreMissing : Bool) : Run RawText :=
  let collected := generator.collect world kotlin swift ignoreMissing
  match collected.result with
  | .error cause => { collected with result := .error cause }
  | .ok entities =>
    let code := generator.render entities
    let printed := collected.printed ++ generator.progress ("" :: summary entities)
    match output.filter fun text => !text.isEmpty with
    | none =>
      let (last, ended) := printLines [code]
      { collected with printed := printed ++ last, result := ended.map fun _ => code }
    | some text =>
      let path := Path.ofText text
      match writeBelow world path code with
      | (world, .error failure) => { collected with printed, world, result := .error failure }
      | (world, .ok ()) =>
        let (last, ended) := generator.announce (closingLines entities path)
        { collected with
          printed := printed ++ last, world, result := ended.map fun _ => code }

end DartBindings
