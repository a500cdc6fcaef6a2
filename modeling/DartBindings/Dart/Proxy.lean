import DartBindings.Bridge.Entity
import DartBindings.Dart.TypeMapping
import DartBindings.Text.Raw

/-!
Proxies: the Dart class that stands for an entity.

A proxy has no instances. A call becomes a static function that invokes the member over the
method channel, a subscription one that listens to an event channel of its own.

The names of channels may be raw texts, and then so is the code.
-/

set_option autoImplicit false

namespace DartBindings.Dart

open Text Bridge

def reservedWords : List String := [
  "assert", "break", "case", "catch", "class", "const", "continue", "default", "do", "else",
  "enum", "extends", "false", "final", "finally", "for", "if", "in", "is", "new", "null",
  "rethrow", "return", "super", "switch", "this", "throw", "true", "try", "var", "void", "while",
  "with", "await", "yield"]

/-- The name with an underscore at its end if it is reserved. -/
def escapeReserved (name : String) : String :=
  if reservedWords.contains name then name ++ "_" else name

/-- The texts that code is put together from. -/
class CodeText (τ : Type) extends Append τ where
  ofString : String → τ
  /-- The texts with a separator between each two. -/
  intercalate : String → List τ → τ

instance : CodeText String := ⟨fun text => text, String.intercalate⟩

instance : CodeText RawText :=
  ⟨RawText.ofString, fun separator => (RawText.ofString separator).intercalate⟩

open CodeText

@[simp] theorem CodeText.ofString_string (text : String) : (ofString text : String) = text := rfl

@[simp] theorem CodeText.intercalate_string (separator : String) (texts : List String) :
    intercalate separator texts = separator.intercalate texts := rfl

variable {τ : Type} [CodeText τ]

def quoted (text : τ) : τ :=
  ofString "'" ++ text ++ ofString "'"

/-- What the text of a proxy depends on besides its entity. -/
structure Conventions (τ : Type) where
  types : TypeMapping
  /-- What the names of event channels begin with. -/
  eventBase : τ
  deriving DecidableEq, Repr

/-- The Dart type of a parameter: nullable if the native type is optional, unless dynamic. -/
def parameterType (types : TypeMapping) (sourceType : String) : String :=
  let type := types.dartType sourceType
  let isOptional := ((Text.strip sourceType.toList).getLast?.map isOptionalMark).getD false
  if isOptional && type != dynamicType then type ++ "?" else type

def parameterList (types : TypeMapping) (parameters : List Parameter) : String :=
  ", ".intercalate (parameters.map fun parameter =>
    parameterType types parameter.sourceType ++ " " ++ escapeReserved parameter.name)

/-- An entry of a payload: the native name, and the Dart parameter that holds the value. -/
def payloadEntry (parameter : Parameter) : String :=
  quoted parameter.name ++ ": " ++ escapeReserved parameter.name

/-- The arguments as they are sent: nothing for none, the bare value of one, a map by native
names for more. -/
def payload : List Parameter → String
  | [] => ""
  | [parameter] => escapeReserved parameter.name
  | parameters => "\x7b" ++ ", ".intercalate (parameters.map payloadEntry) ++ "\x7d"

/-- The name under which the native side knows a member. -/
def target (className : String) (callable : Callable) : String :=
  className ++ "." ++ callable.name

def invocationArguments (className : String) (callable : Callable) : String :=
  let sent := payload callable.parameters
  let target := quoted (target className callable)
  if sent.isEmpty then target else target ++ ", " ++ sent

/-- The function of a call. A result without a Dart type of its own is dynamic. -/
def callFunction (conventions : Conventions τ) (className : String) (callable : Callable) :
    String :=
  let type := conventions.types.dartType callable.returnType
  let parameters := parameterList conventions.types callable.parameters
  let arguments := invocationArguments className callable
  let untyped := type == voidType || type == dynamicType
  let result := if untyped then "Future<dynamic>" else "Future<" ++ type ++ "?>"
  let method := if untyped then "invokeMethod" else "invokeMethod<" ++ type ++ ">"
  "  /// Calls native " ++ target className callable ++ "\n"
    ++ "  static " ++ result ++ " " ++ callable.name ++ "(" ++ parameters ++ ") async \x7b\n"
    ++ "    return _channel." ++ method ++ "(" ++ arguments ++ ");\n"
    ++ "  \x7d"

/-- The function of a subscription. Its events are cast unless they are dynamic. -/
def subscriptionFunction (conventions : Conventions τ) (className : String)
    (callable : Callable) : τ :=
  let mapped := conventions.types.dartType callable.returnType
  let type := if mapped == voidType then dynamicType else mapped
  let parameters := parameterList conventions.types callable.parameters
  let channel := quoted (conventions.eventBase ++ ofString (target className callable))
  let cast := if type == dynamicType then "" else ".cast<" ++ type ++ ">()"
  ofString ("  /// Subscribes to native " ++ target className callable ++ "\n"
      ++ "  static Stream<" ++ type ++ "> " ++ callable.name ++ "(" ++ parameters ++ ") \x7b\n"
      ++ "    return const EventChannel(")
    ++ channel
    ++ ofString (").receiveBroadcastStream(" ++ payload callable.parameters ++ ")" ++ cast ++ ";\n"
      ++ "  \x7d")

def memberFunction (conventions : Conventions τ) (className : String) (callable : Callable) : τ :=
  match callable.kind with
  | .call => ofString (callFunction conventions className callable)
  | .subscription => subscriptionFunction conventions className callable

def proxyClass (conventions : Conventions τ) (entity : Entity) : τ :=
  let opening := [
    "/// Generated bridge for " ++ entity.name,
    "class " ++ entity.name ++ " \x7b",
    "  " ++ entity.name ++ "._();"]
  let members := entity.callables.flatMap fun callable =>
    [ofString "", memberFunction conventions entity.name callable]
  intercalate "\n" (opening.map ofString ++ members ++ [ofString "\x7d"]) ++ ofString "\n"

end DartBindings.Dart
