import DartBindings.Proofs.Dart.Outline

/-!
Libraries in fragments. The text of a library is cut into pieces that say what they stand for: a
type, the name of a parameter where it is declared, a literal that is written for a string, an
entry of a payload, or other code.
-/

set_option autoImplicit false

namespace DartBindings.Dart

open Bridge

inductive Fragment where
  | code (text : String)
  /-- A type, or a type argument of a function that is called. -/
  | type (text : String)
  /-- The name of a parameter where it is declared. -/
  | declared (name : String)
  | literal (value : String)
  /-- The literal for a key, and the name of the parameter whose value is sent under it. -/
  | entry (key name : String)
  deriving DecidableEq, Repr

def Fragment.text : Fragment → String
  | .code text | .type text => text
  | .declared name => name
  | .literal value => quoted value
  | .entry key name => quoted key ++ ": " ++ name

def Fragment.isCode : Fragment → Bool
  | .code _ => true
  | .type _ | .declared _ | .literal _ | .entry _ _ => false

def Fragment.type? : Fragment → Option String
  | .type text => some text
  | .code _ | .declared _ | .literal _ | .entry _ _ => none

def Fragment.declared? : Fragment → Option String
  | .declared name => some name
  | .code _ | .type _ | .literal _ | .entry _ _ => none

/-- The string for which the fragment begins with a literal. -/
def Fragment.literal? : Fragment → Option String
  | .literal value | .entry value _ => some value
  | .code _ | .type _ | .declared _ => none

def Fragment.entry? : Fragment → Option (String × String)
  | .entry key name => some (key, name)
  | .code _ | .type _ | .declared _ | .literal _ => none

def textOf (fragments : List Fragment) : List Char :=
  fragments.flatMap fun fragment => fragment.text.toList

@[simp]
theorem textOf_nil : textOf [] = [] := rfl

@[simp]
theorem textOf_cons (fragment : Fragment) (rest : List Fragment) :
    textOf (fragment :: rest) = fragment.text.toList ++ textOf rest :=
  List.flatMap_cons

@[simp]
theorem textOf_append (first second : List Fragment) :
    textOf (first ++ second) = textOf first ++ textOf second :=
  List.flatMap_append

theorem textOf_flatMap {α : Type} (items : List α) (fragments : α → List Fragment) :
    textOf (items.flatMap fragments) = items.flatMap fun item => textOf (fragments item) :=
  List.flatMap_assoc

/-! ## Commas -/

/-- Lists of fragments with commas between them. -/
def separated : List (List Fragment) → List Fragment
  | [] => []
  | first :: rest => first ++ rest.flatMap (.code ", " :: ·)

theorem textOf_separated {α : Type} {fragments : α → List Fragment} {text : α → String}
    (spelled : ∀ item, textOf (fragments item) = (text item).toList) (items : List α) :
    textOf (separated (items.map fragments)) = (", ".intercalate (items.map text)).toList := by
  cases items with
  | nil => rfl
  | cons first rest =>
      rw [List.map_cons, List.map_cons, toList_intercalate_cons, separated, textOf_append,
        spelled, textOf_flatMap, List.flatMap_map, List.flatMap_map]
      simp only [textOf_cons, spelled, Fragment.text]

/-! ## Functions -/

def parameterFragments (types : TypeMapping) (parameter : Parameter) : List Fragment :=
  [.type (parameterType types parameter.sourceType), .code " ",
    .declared (escapeReserved parameter.name)]

def listFragments (types : TypeMapping) (parameters : List Parameter) : List Fragment :=
  separated (parameters.map (parameterFragments types))

theorem textOf_listFragments (types : TypeMapping) (parameters : List Parameter) :
    textOf (listFragments types parameters) = (parameterList types parameters).toList := by
  refine textOf_separated (fun parameter => ?_) parameters
  simp [parameterFragments, Fragment.text]

def entryFragments (parameter : Parameter) : List Fragment :=
  [.entry parameter.name (escapeReserved parameter.name)]

def payloadFragments : List Parameter → List Fragment
  | [] => []
  | [parameter] => [.code (escapeReserved parameter.name)]
  | parameters => .code "\x7b" :: (separated (parameters.map entryFragments) ++ [.code "\x7d"])

theorem textOf_payloadFragments (parameters : List Parameter) :
    textOf (payloadFragments parameters) = (payload parameters).toList := by
  have entry (parameter : Parameter) :
      textOf (entryFragments parameter) = (payloadEntry parameter).toList := by
    simp [entryFragments, payloadEntry, Fragment.text]
  rcases parameters with _ | ⟨first, _ | ⟨second, rest⟩⟩
  · rfl
  · simp [payloadFragments, payload, Fragment.text]
  · simp only [payloadFragments, payload, textOf_cons, textOf_append, textOf_separated entry,
      textOf_nil, Fragment.text, String.toList_append, List.append_nil, List.append_assoc]

def callFragments (conventions : Conventions String) (className : String) (callable : Callable) :
    List Fragment :=
  let type := conventions.types.dartType callable.returnType
  let untyped := type == voidType || type == dynamicType
  let target := target className callable
  let result := if untyped then "Future<dynamic>" else "Future<" ++ type ++ "?>"
  let method : List Fragment :=
    if untyped then [.code "invokeMethod"]
    else [.code "invokeMethod<", .type type, .code ">"]
  let sent : List Fragment :=
    if (payload callable.parameters).isEmpty then []
    else .code ", " :: payloadFragments callable.parameters
  [Fragment.code ("  /// Calls native " ++ target ++ "\n" ++ "  static "), .type result,
      .code (" " ++ callable.name ++ "(")]
    ++ listFragments conventions.types callable.parameters
    ++ [Fragment.code (") async \x7b\n" ++ "    return _channel.")] ++ method
    ++ [Fragment.code "(", .literal target] ++ sent ++ [Fragment.code (");\n" ++ "  \x7d")]

theorem textOf_callFragments (conventions : Conventions String) (className : String)
    (callable : Callable) :
    textOf (callFragments conventions className callable) =
      (callFunction conventions className callable).toList := by
  unfold callFragments callFunction invocationArguments
  dsimp only
  split <;> split <;>
    simp only [textOf_append, textOf_cons, textOf_nil, textOf_listFragments,
      textOf_payloadFragments, Fragment.text, String.toList_append, List.append_assoc,
      List.append_nil]

def subscriptionFragments (conventions : Conventions String) (className : String)
    (callable : Callable) : List Fragment :=
  let mapped := conventions.types.dartType callable.returnType
  let type := if mapped == voidType then dynamicType else mapped
  let target := target className callable
  let cast : List Fragment :=
    if type == dynamicType then [] else [.code ".cast<", .type type, .code ">()"]
  [Fragment.code ("  /// Subscribes to native " ++ target ++ "\n" ++ "  static "),
      .type ("Stream<" ++ type ++ ">"), .code (" " ++ callable.name ++ "(")]
    ++ listFragments conventions.types callable.parameters
    ++ [Fragment.code (") \x7b\n" ++ "    return const EventChannel("),
      .literal (conventions.eventBase ++ target), .code ").receiveBroadcastStream("]
    ++ payloadFragments callable.parameters
    ++ [Fragment.code ")"] ++ cast ++ [Fragment.code (";\n" ++ "  \x7d")]

theorem textOf_subscriptionFragments (conventions : Conventions String) (className : String)
    (callable : Callable) :
    textOf (subscriptionFragments conventions className callable) =
      (subscriptionFunction conventions className callable).toList := by
  have opened : "  static Stream<" = "  static " ++ "Stream<" := by decide
  have called : "> " = ">" ++ " " := by decide
  unfold subscriptionFragments subscriptionFunction
  dsimp only
  generalize (if conventions.types.dartType callable.returnType == voidType then dynamicType
    else conventions.types.dartType callable.returnType) = type
  rw [opened, called]
  split <;>
    simp only [textOf_append, textOf_cons, textOf_nil, textOf_listFragments,
      textOf_payloadFragments, Fragment.text, CodeText.ofString_string, String.toList_append,
      String.toList_empty, List.append_assoc, List.append_nil]

def memberFragments (conventions : Conventions String) (className : String) (callable : Callable) :
    List Fragment :=
  match callable.kind with
  | .call => callFragments conventions className callable
  | .subscription => subscriptionFragments conventions className callable

theorem textOf_memberFragments (conventions : Conventions String) (className : String)
    (callable : Callable) :
    textOf (memberFragments conventions className callable) =
      (memberFunction conventions className callable).toList := by
  unfold memberFragments memberFunction
  cases callable.kind with
  | call => exact textOf_callFragments conventions className callable
  | subscription => exact textOf_subscriptionFragments conventions className callable

/-! ## Marked fragments -/

/-- The fragments that are not mere code. -/
def marks (fragments : List Fragment) : List Fragment :=
  fragments.filter fun fragment => !fragment.isCode

@[simp]
theorem marks_nil : marks [] = [] := rfl

@[simp]
theorem marks_cons (fragment : Fragment) (rest : List Fragment) :
    marks (fragment :: rest) =
      if fragment.isCode = false then fragment :: marks rest else marks rest := by
  simp [marks, List.filter_cons]

@[simp]
theorem marks_append (first second : List Fragment) :
    marks (first ++ second) = marks first ++ marks second :=
  List.filter_append ..

theorem marks_flatMap {α : Type} (items : List α) (fragments : α → List Fragment) :
    marks (items.flatMap fragments) = items.flatMap fun item => marks (fragments item) :=
  List.filter_flatMap ..

/-- What shows nothing of mere code is read off the marks. -/
theorem filterMap_marks {β : Type} {view : Fragment → Option β}
    (silent : ∀ text, view (.code text) = none) (fragments : List Fragment) :
    (marks fragments).filterMap view = fragments.filterMap view := by
  rw [marks, List.filterMap_filter]
  congr 1
  funext fragment
  cases fragment with
  | code text => exact (silent text).symm
  | type | declared | literal | entry => rfl

theorem marks_separated (lists : List (List Fragment)) :
    marks (separated lists) = lists.flatMap marks := by
  cases lists with
  | nil => rfl
  | cons first rest => simp [separated, marks_flatMap, Fragment.isCode]

theorem marks_listFragments (types : TypeMapping) (parameters : List Parameter) :
    marks (listFragments types parameters) =
      parameters.flatMap fun parameter =>
        [.type (parameterType types parameter.sourceType),
          .declared (escapeReserved parameter.name)] := by
  simp [listFragments, marks_separated, List.flatMap_map, parameterFragments, Fragment.isCode]

theorem marks_payloadFragments (parameters : List Parameter) :
    marks (payloadFragments parameters) =
      if parameters.length < 2 then []
      else parameters.map fun parameter =>
        .entry parameter.name (escapeReserved parameter.name) := by
  have entries : marks (separated (parameters.map entryFragments)) =
      parameters.map fun parameter =>
        .entry parameter.name (escapeReserved parameter.name) := by
    rw [marks_separated, List.flatMap_map]
    exact (List.map_eq_flatMap ..).symm
  rcases parameters with _ | ⟨first, _ | ⟨second, rest⟩⟩
  · rfl
  · rfl
  · simp only [payloadFragments, marks_cons, marks_append, entries, Fragment.isCode]
    simp

theorem marks_callFragments (conventions : Conventions String) (className : String)
    (callable : Callable) :
    marks (callFragments conventions className callable) =
      let type := conventions.types.dartType callable.returnType
      let untyped := type == voidType || type == dynamicType
      .type (if untyped then "Future<dynamic>" else "Future<" ++ type ++ "?>")
        :: marks (listFragments conventions.types callable.parameters)
        ++ (if untyped then [] else [.type type])
        ++ .literal (target className callable)
        :: marks (payloadFragments callable.parameters) := by
  -- What is not sent has no marks.
  have unsent (empty : (payload callable.parameters).isEmpty) :
      marks (payloadFragments callable.parameters) = [] := by
    generalize callable.parameters = parameters at empty
    rcases parameters with _ | ⟨first, _ | ⟨second, rest⟩⟩
    · rfl
    · rfl
    · simp [payload] at empty
  unfold callFragments
  dsimp only
  split <;> split <;> simp_all [Fragment.isCode]

theorem marks_subscriptionFragments (conventions : Conventions String) (className : String)
    (callable : Callable) :
    marks (subscriptionFragments conventions className callable) =
      let mapped := conventions.types.dartType callable.returnType
      let type := if mapped == voidType then dynamicType else mapped
      .type ("Stream<" ++ type ++ ">")
        :: marks (listFragments conventions.types callable.parameters)
        ++ .literal (conventions.eventBase ++ target className callable)
        :: marks (payloadFragments callable.parameters)
        ++ (if type == dynamicType then [] else [.type type]) := by
  unfold subscriptionFragments
  dsimp only
  split <;> split <;> simp_all [Fragment.isCode]

/-- The name that a function reaches: the target of a call, or the channel of a subscription. -/
def reachedName (conventions : Conventions String) (className : String) (callable : Callable) :
    String :=
  match callable.kind with
  | .call => target className callable
  | .subscription => conventions.eventBase ++ target className callable

/-- What shows neither code nor types is read off the parameters, the name that is reached, and
the payload. -/
theorem filterMap_memberFragments {β : Type} {view : Fragment → Option β}
    (code : ∀ text, view (.code text) = none) (type : ∀ text, view (.type text) = none)
    (conventions : Conventions String) (className : String) (callable : Callable) :
    (memberFragments conventions className callable).filterMap view =
      (marks (listFragments conventions.types callable.parameters)).filterMap view
        ++ (view (.literal (reachedName conventions className callable))).toList
        ++ (marks (payloadFragments callable.parameters)).filterMap view := by
  rw [← filterMap_marks code, memberFragments, reachedName]
  cases callable.kind with
  | call =>
      rw [marks_callFragments]
      dsimp only
      cases named : view (.literal (target className callable)) <;> split <;>
        simp [type, named]
  | subscription =>
      rw [marks_subscriptionFragments]
      dsimp only
      cases named : view (.literal (conventions.eventBase ++ target className callable)) <;>
        split <;> simp [type, named]

/-! ## Classes and libraries -/

def classFragments (conventions : Conventions String) (entity : Entity) : List Fragment :=
  [Fragment.code ("/// Generated bridge for " ++ entity.name ++ "\n" ++ "class " ++ entity.name ++ " \x7b"
      ++ "\n" ++ "  " ++ entity.name ++ "._();")]
    ++ (entity.callables.flatMap fun callable =>
      .code ("\n" ++ "\n") :: memberFragments conventions entity.name callable)
    ++ [Fragment.code ("\n" ++ "\x7d" ++ "\n")]

theorem textOf_classFragments (conventions : Conventions String) (entity : Entity) :
    textOf (classFragments conventions entity) = (proxyClass conventions entity).toList := by
  rw [proxyClass_eq]
  simp only [classFragments, textOf_append, textOf_cons, textOf_nil, textOf_flatMap,
    textOf_memberFragments, Fragment.text, String.toList_append, List.append_assoc,
    List.append_nil]

def libraryFragments (conventions : Conventions String) (channel : String)
    (entities : List Entity) : List Fragment :=
  [Fragment.code ("\n".intercalate [
        "// GENERATED CODE - DO NOT MODIFY BY HAND",
        "// Generated by native-bridge-generator",
        "",
        "import 'package:flutter/services.dart';",
        "",
        "const _channel = MethodChannel("]),
      .literal channel, .code (");" ++ "\n")]
    ++ entities.flatMap fun entity => Fragment.code "\n" :: classFragments conventions entity

theorem textOf_libraryFragments (conventions : Conventions String) (channel : String)
    (entities : List Entity) :
    textOf (libraryFragments conventions channel entities) =
      (library conventions channel entities).toList := by
  rw [library_eq, libraryOf, preamble]
  simp only [libraryFragments, CodeText.ofString_string, CodeText.intercalate_string, textOf_cons,
    textOf_flatMap, textOf_classFragments, Fragment.text, toList_intercalate_cons,
    List.flatMap_cons, List.flatMap_nil, String.toList_append, String.toList_empty,
    List.append_assoc, List.append_nil, List.nil_append, List.cons_append]

end DartBindings.Dart
