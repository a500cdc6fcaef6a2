import DartBindings.Bridge.Merge
import DartBindings.Dart.Library
import DartBindings.Declaration.Extraction

/-!
Bindings: from the two native texts of one program to its Dart library.
-/

set_option autoImplicit false

namespace DartBindings

open Bridge Dart Declaration

/-- The outcome for a pair of texts: the merged entities, what the extractions and the merge
report, and the library. -/
structure Binding where
  entities : List Entity
  warnings : List Warning
  conflicts : List Conflict
  code : String

/-- Without registered types, with the default event channels. -/
def defaultConventions : Conventions String := ⟨.empty, defaultEventBase⟩

/-- The binding of a Kotlin text and a Swift text; the Swift definitions prevail. -/
def bind (kotlin swift : List Char) : Except ReadError Binding := do
  let first := extract .kotlin kotlin none
  let android ← first.result
  let second := extract .swift swift none
  let ios ← second.result
  let (entities, conflicts) := merge android ios
  return ⟨entities, first.warnings ++ second.warnings, conflicts,
    library defaultConventions defaultChannel entities⟩

end DartBindings
