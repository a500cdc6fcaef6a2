import DartBindings.Dart.Library
import DartBindings.Proofs.Text.Raw

/-!
Raw code. A library with channels that are texts of characters is the same text whether or not it
is built as a raw one, so it has an encoding.
-/

set_option autoImplicit false

namespace DartBindings.Dart

open Text Bridge CodeText

theorem ofString_raw (text : String) : (ofString text : RawText) = RawText.ofString text := rfl

theorem intercalate_raw (separator : String) (texts : List RawText) :
    intercalate separator texts = (RawText.ofString separator).intercalate texts := rfl

theorem ofString_intercalate (separator : String) (texts : List String) :
    RawText.ofString (separator.intercalate texts) =
      intercalate separator (texts.map RawText.ofString) := by
  induction texts with
  | nil => rfl
  | cons first texts ih =>
      cases texts with
      | nil => simp [intercalate_raw]
      | cons second texts =>
          rw [intercalate_raw, List.map_cons, List.map_cons, List.intercalate_cons_cons,
            ← List.map_cons, ← intercalate_raw, ← ih, String.intercalate_cons_cons,
            RawText.ofString_append, RawText.ofString_append]

/-- The conventions with a raw text for the names of event channels. -/
def Conventions.raw (conventions : Conventions String) : Conventions RawText :=
  ⟨conventions.types, RawText.ofString conventions.eventBase⟩

theorem quoted_ofString (text : String) :
    quoted (RawText.ofString text) = RawText.ofString (quoted text) := by
  simp only [quoted, ofString_raw, ofString_string, RawText.ofString_append]

theorem memberFunction_raw (conventions : Conventions String) (className : String)
    (callable : Callable) :
    memberFunction conventions.raw className callable =
      RawText.ofString (memberFunction conventions className callable) := by
  unfold memberFunction
  cases callable.kind with
  | call => rfl
  | subscription =>
      simp only [subscriptionFunction, Conventions.raw, ofString_raw, ofString_string,
        ← RawText.ofString_append, quoted_ofString]
      rfl

theorem proxyClass_raw (conventions : Conventions String) (entity : Entity) :
    proxyClass conventions.raw entity = RawText.ofString (proxyClass conventions entity) := by
  simp only [proxyClass, memberFunction_raw, ofString_raw, ofString_string, intercalate_string,
    RawText.ofString_append, ofString_intercalate, List.map_append, List.map_flatMap,
    List.map_cons, List.map_nil]

theorem preamble_raw (channel : String) :
    preamble (RawText.ofString channel) = (preamble channel).map RawText.ofString := by
  simp only [preamble, quoted_ofString, ofString_raw, ofString_string, RawText.ofString_append,
    List.map_cons, List.map_nil]

theorem library_raw (conventions : Conventions String) (channel : String)
    (entities : List Entity) :
    library conventions.raw (RawText.ofString channel) entities =
      RawText.ofString (library conventions channel entities) := by
  have classes : proxyClass conventions.raw = RawText.ofString ∘ proxyClass conventions :=
    funext (proxyClass_raw conventions)
  rw [library, library, libraryOf, libraryOf, preamble_raw, classes, ← List.map_map,
    ← List.map_append, ← ofString_intercalate, intercalate_string]

theorem library_isText {conventions : Conventions RawText} {channel : RawText}
    (base : conventions.eventBase.IsText) (name : channel.IsText) (entities : List Entity) :
    (library conventions channel entities).IsText := by
  obtain ⟨eventBase, start⟩ := RawText.isText_iff.mp base
  obtain ⟨channel, rfl⟩ := RawText.isText_iff.mp name
  have same : conventions = Conventions.raw ⟨conventions.types, eventBase⟩ := by
    rw [Conventions.raw, ← start]
  rw [same, library_raw]
  exact RawText.isText_ofString _

end DartBindings.Dart
