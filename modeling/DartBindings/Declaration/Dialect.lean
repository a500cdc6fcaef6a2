import DartBindings.Bridge.Entity
import DartBindings.Source.Token

/-!
Dialects: how a platform's language declares classes and members, and which of them it exposes.
-/

set_option autoImplicit false

namespace DartBindings.Declaration

open Bridge Source

/-- Where a member writes its return type. -/
inductive ReturnStyle where
  | colon
  /-- After an arrow, which words that state an effect may precede. -/
  | arrow (effects : List String)
  | unstated
  deriving DecidableEq, Repr

/-- The conventions of a platform's language. -/
structure Dialect where
  fileEnding : String
  origin : Origin
  /-- The marker of a class all of whose members are exposed. -/
  classMarker : String
  /-- The marker of an exposed member. -/
  memberMarker : String
  /-- The marker that exempts a member of a marked class. -/
  exemptMarker : String
  /-- The modifiers that exempt a member of a marked class. -/
  restricted : List String
  /-- The modifiers of members of the class itself, which are never exposed. -/
  typeLevel : List String
  modifiers : List String
  memberKeyword : String
  /-- The return type of a member that states none. -/
  voidType : String
  returns : ReturnStyle
  /-- Classes whose names end so are never exposed. -/
  exemptEndings : List String
  /-- Classes with one of these supertypes are never exposed. -/
  exemptSupertypes : List String
  /-- The ending of a streaming member that its stream's name leaves out. -/
  streamEnding : String
  deriving DecidableEq, Repr

/-- Kotlin: a class is marked as a whole, or single members are. -/
def Dialect.kotlin : Dialect where
  fileEnding := ".kt"
  origin := .android
  classMarker := "NativeBridge"
  memberMarker := "NativeFunction"
  exemptMarker := "NativeIgnore"
  restricted := ["private", "internal", "protected"]
  typeLevel := []
  modifiers := [
    "public", "private", "internal", "protected", "open", "final", "abstract", "override",
    "suspend", "inline", "data", "enum", "sealed", "inner", "operator", "infix", "tailrec",
    "external", "annotation", "companion", "value", "expect", "actual"]
  memberKeyword := "fun"
  voidType := "Unit"
  returns := .colon
  exemptEndings := []
  exemptSupertypes := []
  streamEnding := ""

/-- Swift: what is visible to Objective-C is exposed, apart from the classes that host the
application. -/
def Dialect.swift : Dialect where
  fileEnding := ".swift"
  origin := .ios
  classMarker := "objcMembers"
  memberMarker := "objc"
  exemptMarker := "nonobjc"
  restricted := ["private", "fileprivate"]
  typeLevel := ["static", "class"]
  modifiers := [
    "public", "private", "fileprivate", "internal", "open", "final", "static", "override",
    "dynamic", "required", "convenience", "mutating", "nonmutating", "lazy", "weak", "unowned",
    "indirect", "nonisolated"]
  memberKeyword := "func"
  voidType := "Void"
  returns := .arrow ["throws", "rethrows", "async"]
  exemptEndings := ["AppDelegate", "Plugin"]
  exemptSupertypes := ["FlutterAppDelegate"]
  streamEnding := "WithSink"

/-- A dialect that states nothing: its files have any name, its member keyword is the empty
name, and it has no place for a return type. -/
def Dialect.blank : Dialect where
  fileEnding := ""
  origin := .unified
  classMarker := ""
  memberMarker := ""
  exemptMarker := ""
  restricted := []
  typeLevel := []
  modifiers := []
  memberKeyword := ""
  voidType := ""
  returns := .unstated
  exemptEndings := []
  exemptSupertypes := []
  streamEnding := ""

def classKeyword : String := "class"

/-- Words that start another declaration: none of them is the name of a class, and a class
without a body ends before them. -/
def declarationWords : List String := [
  "class", "fun", "func", "val", "var", "let", "object", "interface", "struct", "enum",
  "protocol", "extension", "import", "typealias", "init"]

/-- The types of the parameter that a subscription writes to. -/
def sinkTypes : List String := ["StreamSink", "EventSink"]

def Dialect.isModifier (dialect : Dialect) (token : Token) : Bool :=
  token.kind == .word && dialect.modifiers.contains token.value

def Dialect.isKeyword (dialect : Dialect) (token : Token) : Bool :=
  token.kind == .word && (token.value == classKeyword || token.value == dialect.memberKeyword)

/-- The class may be exposed at all. -/
def Dialect.exposes (dialect : Dialect) (name : String) (supertypes : List String) : Bool :=
  !(dialect.exemptEndings.any fun ending => ending.toList.isSuffixOf name.toList)
    && !(dialect.exemptSupertypes.any supertypes.contains)

/-- The name of the stream that a member feeds: the member's, without the ending that the
dialect gives to streaming members. The ending alone is a name. -/
def Dialect.streamName (dialect : Dialect) (name : String) : String :=
  let ending := dialect.streamEnding.toList
  let text := name.toList
  if ending.isSuffixOf text && ending.length < text.length then
    String.ofList (text.take (text.length - ending.length))
  else name

end DartBindings.Declaration
