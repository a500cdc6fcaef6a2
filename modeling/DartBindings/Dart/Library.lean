import DartBindings.Dart.Proxy

/-!
Libraries: the Dart file that holds the proxies of all entities and the method channel that they
share.
-/

set_option autoImplicit false

namespace DartBindings.Dart

open Bridge CodeText

variable {τ : Type} [CodeText τ]

def defaultChannel : String := "flutter_native_bridge"

/-- What the names of event channels begin with, unless otherwise given. -/
def defaultEventBase : String := "flutter_native_bridge/events/"

/-- The lines above the proxies. -/
def preamble (channel : τ) : List τ := [
  ofString "// GENERATED CODE - DO NOT MODIFY BY HAND",
  ofString "// Generated by native-bridge-generator",
  ofString "",
  ofString "import 'package:flutter/services.dart';",
  ofString "",
  ofString "const _channel = MethodChannel(" ++ quoted channel ++ ofString ");",
  ofString ""]

/-- The library that holds the texts of these classes. -/
def libraryOf (channel : τ) (classes : List τ) : τ :=
  intercalate "\n" (preamble channel ++ classes)

def library (conventions : Conventions τ) (channel : τ) (entities : List Entity) : τ :=
  libraryOf channel (entities.map (proxyClass conventions))

end DartBindings.Dart
