import DartBindings.Dart.Library
import DartBindings.Files.Tree
import DartBindings.Markup.Document
import DartBindings.Removal
import DartBindings.Text.Character

/-!
Settings: where the sources are and what the library is called, as a settings file states it.

A settings file is a document whose root is `bridge`. Elements of other names, and elements that
are not directly in the root, are ignored; of the elements that state one thing the last counts.
Values lose the blanks around them after it has been tested whether they are there at all.
-/

set_option autoImplicit false

namespace DartBindings

open Text Markup Files

/-- What a settings file may state. -/
structure Settings where
  kotlinDirectory : String
  swiftDirectory : String
  outputFile : String
  channel : String
  eventBase : String
  types : List (String × String)
  removals : List Removal
  deriving DecidableEq, Repr

/-- What holds without a settings file. -/
def Settings.default : Settings where
  kotlinDirectory := "android/app/src/main/kotlin"
  swiftDirectory := "ios/Runner"
  outputFile := "lib/native_bridge.g.dart"
  channel := Dart.defaultChannel
  eventBase := Dart.defaultEventBase
  types := []
  removals := []

/-- The elements that a settings file may hold. -/
inductive SettingKind where
  | kotlin
  | swift
  | output
  | type
  | removal
  deriving DecidableEq, Repr

/-- Why a settings file is of no use. -/
inductive SettingsError where
  | missingFile (path : RawText)
  | unusableFile (error : FileError)
  | unreadable (error : DocumentError)
  | wrongRoot (name : String)
  | blankChannel
  | missingValue (kind : SettingKind)
  deriving DecidableEq, Repr

def SettingsError.message : SettingsError → RawText
  | .missingFile path => RawText.ofString "Configuration file not found: " ++ path
  | .unusableFile error => error.message
  | .unreadable error => error.message
  | .wrongRoot name => RawText.ofString ("Expected root element 'bridge', got '" ++ name ++ "'")
  | .blankChannel => "Attribute 'channel' must not be empty"
  | .missingValue .kotlin => "Kotlin element missing 'path' attribute"
  | .missingValue .swift => "Swift element missing 'path' attribute"
  | .missingValue .output => "Output element missing 'file' attribute"
  | .missingValue .type => "Type element missing 'from' or 'to' attribute"
  | .missingValue .removal => "Remove element missing 'pattern' attribute"

/-- The error is none of what a settings file states: the file cannot be used, or it names an
encoding that there is not. -/
def SettingsError.isForeign : SettingsError → Bool
  | .unusableFile _ | .unreadable (.unknownEncoding _) | .unreadable (.packed _) => true
  | _ => false

/-- The value of an attribute that has to be there and not to be empty. -/
def requiredValue (kind : SettingKind) (name : String) (element : Element) :
    Except SettingsError String :=
  match element.get? name with
  | some value => if value.isEmpty then .error (.missingValue kind) else .ok (trimmed value)
  | none => .error (.missingValue kind)

/-- The value that the last of the elements states, or else `default`. -/
def lastValue (kind : SettingKind) (name default : String) (elements : List Element) :
    Except SettingsError String :=
  (elements.mapM (requiredValue kind name)).map fun values => values.getLast?.getD default

/-- The Dart type that an element gives to a native type. -/
def typeSetting (element : Element) : Except SettingsError (String × String) := do
  return (← requiredValue .type "from" element, ← requiredValue .type "to" element)

/-- The removal that an element asks for. -/
def removalSetting (element : Element) : Except SettingsError Removal := do
  let text ← requiredValue .removal "pattern" element
  let isPattern := ((element.get? "regex").getD "false").toLower == "true"
  return if isPattern then .matching text else .named text

def channelSetting (root : Element) : Except SettingsError String :=
  match root.get? "channel" with
  | none => .ok Settings.default.channel
  | some value =>
    let channel := trimmed value
    if channel.isEmpty then .error .blankChannel else .ok channel

def Settings.ofElement (root : Element) : Except SettingsError Settings := do
  if root.name != "bridge" then throw (.wrongRoot root.name)
  let channel ← channelSetting root
  let eventBase := ((root.get? "event_prefix").map trimmed).getD Settings.default.eventBase
  let kotlinDirectory ← lastValue .kotlin "path" Settings.default.kotlinDirectory
    (root.childrenNamed "kotlin")
  let swiftDirectory ← lastValue .swift "path" Settings.default.swiftDirectory
    (root.childrenNamed "swift")
  let outputFile ← lastValue .output "file" Settings.default.outputFile
    (root.childrenNamed "output")
  let types ← (root.childrenNamed "type").mapM typeSetting
  let removals ← (root.childrenNamed "remove").mapM removalSetting
  return { kotlinDirectory, swiftDirectory, outputFile, channel, eventBase, types, removals }

def Settings.ofBytes (bytes : List UInt8) : Except SettingsError Settings :=
  match document bytes with
  | .ok root => Settings.ofElement root
  | .error error => .error (.unreadable error)

def Settings.read (world : World) (path : RawText) : Except SettingsError Settings :=
  match world.read path with
  | .ok bytes => Settings.ofBytes bytes
  | .error error =>
    if error.fault == .missing then .error (.missingFile path) else .error (.unusableFile error)

end DartBindings
