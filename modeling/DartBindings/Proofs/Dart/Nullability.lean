import DartBindings.Proofs.Dart.Fragments
import DartBindings.Proofs.Dart.Mappings
import Mathlib.Data.List.Chain

/-!
Nullable types. The type of a parameter gets a question mark if its native type is optional, and
the result of a call gets one in any case. A mapped type that is nullable already gets a second one
there, and the type of a parameter gets its mark even if it has no nullable form.
-/

set_option autoImplicit false

namespace DartBindings.Dart

open Text Bridge

/-! ## Spellings of types -/

def isSpacing (c : Char) : Bool :=
  c == ' ' || c == '\t' || c == '\n' || c == '\r'

def isIdentifierChar (c : Char) : Bool :=
  c.isAlphanum || c == '_' || c == '$'

def isIdentifier (text : List Char) : Bool :=
  text.all isIdentifierChar && text.head?.any fun first => !first.isDigit

inductive TypePart where
  /-- A type without a mark. -/
  | bare
  | type
  /-- Types with commas between them. -/
  | arguments

/-- The well-formed texts of types and of their parts. At most one mark makes a type nullable, and
neither of the types without a nullable form has one. -/
inductive Spells : TypePart → List Char → Prop where
  | name {name} : isIdentifier name = true → Spells .bare name
  | generic {name spacing arguments} :
      isIdentifier name = true → spacing.all isSpacing = true → Spells .arguments arguments →
      Spells .bare (name ++ spacing ++ '<' :: arguments ++ ['>'])
  | plain {text} : Spells .bare text → Spells .type text
  | nullable {text spacing} :
      Spells .bare text → text ≠ dynamicType.toList → text ≠ voidType.toList →
      spacing.all isSpacing = true → Spells .type (text ++ spacing ++ ['?'])
  | argument {before text after} :
      before.all isSpacing = true → Spells .type text → after.all isSpacing = true →
      Spells .arguments (before ++ text ++ after)
  | comma {first rest} :
      Spells .arguments first → Spells .arguments rest → Spells .arguments (first ++ ',' :: rest)

def IsDartType (text : String) : Prop :=
  Spells .type text.toList

theorem not_mem_of_isSpacing {text : List Char} (spacing : text.all isSpacing = true) :
    '?' ∉ text := by
  intro listed
  have blank := List.all_eq_true.mp spacing '?' listed
  cases blank

theorem not_mem_of_isIdentifier {text : List Char} (named : isIdentifier text = true) :
    '?' ∉ text := by
  intro listed
  rw [isIdentifier, Bool.and_eq_true] at named
  have letter := List.all_eq_true.mp named.1 '?' listed
  cases letter

theorem Spells.getLast?_bare {text : List Char} (spelled : Spells .bare text) :
    text.getLast? ≠ some '?' := by
  cases spelled with
  | name named => exact fun last => not_mem_of_isIdentifier named (List.mem_of_getLast? last)
  | generic =>
      rw [List.getLast?_concat]
      decide

/-! ## Marks -/

/-- No mark follows another. -/
def Single (text : List Char) : Prop :=
  text.IsChain fun first second => first = '?' → second ≠ '?'

theorem single_of_not_mem {text : List Char} (unmarked : '?' ∉ text) : Single text := by
  induction text with
  | nil => exact .nil
  | cons first rest ih =>
      rw [List.mem_cons, not_or] at unmarked
      exact List.isChain_cons.mpr ⟨fun second _ mark => absurd mark.symm unmarked.1, ih unmarked.2⟩

theorem Single.append {first second : List Char} (before : Single first) (after : Single second)
    (border : first.getLast? ≠ some '?' ∨ second.head? ≠ some '?') : Single (first ++ second) := by
  refine List.IsChain.append before after ?_
  rintro last closes head opens rfl rfl
  rcases border with border | border
  · exact border closes
  · exact border opens

theorem Single.append_free {first second : List Char} (before : Single first)
    (free : '?' ∉ second) : Single (first ++ second) :=
  before.append (single_of_not_mem free) (.inr fun opens => free (List.mem_of_head? opens))

theorem Single.free_append {first second : List Char} (free : '?' ∉ first)
    (after : Single second) : Single (first ++ second) :=
  (single_of_not_mem free).append after (.inl fun closes => free (List.mem_of_getLast? closes))

theorem not_single_of_doubled (before after : List Char) :
    ¬ Single (before ++ '?' :: '?' :: after) := by
  intro single
  exact (List.isChain_append_cons_cons.mp single).2.1 rfl rfl

theorem getLast?_append_ne {text spacing : List Char} (unmarked : text.getLast? ≠ some '?')
    (blank : spacing.all isSpacing = true) : (text ++ spacing).getLast? ≠ some '?' := by
  intro marked
  rw [List.getLast?_append] at marked
  cases last : spacing.getLast? with
  | none => exact unmarked (by simpa [last] using marked)
  | some c =>
      obtain rfl : c = '?' := by simpa [last] using marked
      exact not_mem_of_isSpacing blank (List.mem_of_getLast? last)

theorem Spells.single {part : TypePart} {text : List Char} (spelled : Spells part text) :
    Single text := by
  induction spelled with
  | name named => exact single_of_not_mem (not_mem_of_isIdentifier named)
  | generic named spacing _ ih =>
      have opened := Single.free_append (show '?' ∉ ['<'] by decide) ih
      have spaced := Single.free_append (not_mem_of_isSpacing spacing) opened
      rw [List.append_assoc _ _ ('<' :: _)]
      exact (Single.free_append (not_mem_of_isIdentifier named) spaced).append_free
        (show '?' ∉ ['>'] by decide)
  | plain _ ih => exact ih
  | nullable bare _ _ spacing ih =>
      have spaced := ih.append_free (not_mem_of_isSpacing spacing)
      exact spaced.append (.singleton _) (.inl (getLast?_append_ne bare.getLast?_bare spacing))
  | argument before _ after ih =>
      exact (Single.free_append (not_mem_of_isSpacing before) ih).append_free
        (not_mem_of_isSpacing after)
  | comma _ _ first rest =>
      have separated := Single.free_append (show '?' ∉ [','] by decide) rest
      exact first.append separated (.inr (by simp))

/-! ## Marked types -/

/-- The type ends in a mark. -/
def isNullable (type : String) : Bool :=
  type.toList.getLast? == some '?'

section Marked

variable {type : String}

theorem isNullable_iff : isNullable type = true ↔ ∃ front, type.toList = front ++ ['?'] := by
  rw [isNullable, beq_iff_eq, List.getLast?_eq_some_iff]

/-- A type before a mark that follows no other mark has none. -/
theorem not_nullable_of_single (before : List Char) {after : List Char}
    (single : Single (before ++ type.toList ++ '?' :: after)) : isNullable type = false := by
  refine Bool.eq_false_iff.mpr fun already => ?_
  obtain ⟨front, ends⟩ := isNullable_iff.mp already
  rw [ends, ← List.append_assoc, List.append_assoc (before ++ front)] at single
  exact not_single_of_doubled (before ++ front) after single

theorem bare_of_not_nullable (spelled : IsDartType type) (unmarked : isNullable type = false) :
    Spells .bare type.toList := by
  unfold IsDartType at spelled
  generalize same : type.toList = text at spelled
  cases spelled with
  | plain bare => exact bare
  | @nullable front spacing =>
      have marked := isNullable_iff.mpr ⟨front ++ spacing, same⟩
      rw [unmarked] at marked
      cases marked

/-- The text before a mark is a type without a mark, and with a nullable form. -/
theorem nullable_inv {front : List Char} (spelled : Spells .type (front ++ ['?'])) :
    ∃ text spacing, front = text ++ spacing ∧ spacing.all isSpacing = true ∧
      text ≠ dynamicType.toList ∧ text ≠ voidType.toList := by
  generalize same : front ++ ['?'] = whole at spelled
  cases spelled with
  | plain bare =>
      refine absurd ?_ bare.getLast?_bare
      rw [← same, List.getLast?_concat]
  | @nullable text spacing bare typed valued blank =>
      exact ⟨text, spacing, List.append_cancel_right same, blank, typed, valued⟩

theorem eq_nil_of_isSpacing {text spacing : List Char} (blank : spacing.all isSpacing = true)
    (solid : (text ++ spacing).all (fun c => !isSpacing c) = true) : spacing = [] := by
  cases spacing with
  | nil => rfl
  | cons c rest => simp_all

/-- A type can be marked exactly if it is not marked yet and has a nullable form. -/
theorem isDartType_marked_iff (spelled : IsDartType type) :
    IsDartType (type ++ "?") ↔ isNullable type = false ∧ type ≠ dynamicType ∧ type ≠ voidType := by
  have marked : (type ++ "?").toList = type.toList ++ ['?'] := String.toList_append
  unfold IsDartType
  rw [marked]
  constructor
  · intro doubled
    obtain ⟨text, spacing, split, blank, typed, valued⟩ := nullable_inv doubled
    have apart {word : String} (solid : word.toList.all (fun c => !isSpacing c) = true)
        (other : text ≠ word.toList) : type ≠ word := by
      rintro rfl
      rw [split] at solid
      obtain rfl := eq_nil_of_isSpacing blank solid
      exact other (by rw [split, List.append_nil])
    exact ⟨not_nullable_of_single [] doubled.single, apart (by decide) typed,
      apart (by decide) valued⟩
  · intro ⟨unmarked, typed, valued⟩
    have bare := bare_of_not_nullable spelled unmarked
    rw [← List.append_nil type.toList]
    exact .nullable bare (fun same => typed (String.toList_injective same))
      (fun same => valued (String.toList_injective same)) rfl

theorem isDartType_name (named : isIdentifier type.toList = true) : IsDartType type :=
  .plain (.name named)

theorem Spells.applied {name arguments : List Char} (named : isIdentifier name = true)
    (spelled : Spells .arguments arguments) : Spells .type (name ++ '<' :: arguments ++ ['>']) := by
  simpa using Spells.plain (.generic named (show [].all isSpacing = true from rfl) spelled)

theorem Spells.sole (spelled : IsDartType type) : Spells .arguments type.toList := by
  simpa using Spells.argument (show [].all isSpacing = true from rfl) spelled
    (show [].all isSpacing = true from rfl)

theorem isDartType_over {text : String} (name : List Char) (named : isIdentifier name = true)
    (spelled : IsDartType type) (same : text.toList = name ++ '<' :: type.toList ++ ['>']) :
    IsDartType text := by
  rw [IsDartType, same]
  exact .applied named (.sole spelled)

theorem isDartType_future_iff (spelled : IsDartType type) (typed : type ≠ dynamicType)
    (valued : type ≠ voidType) :
    IsDartType ("Future<" ++ type ++ "?>") ↔ isNullable type = false := by
  constructor
  · intro future
    have single := future.single
    rw [String.toList_append, String.toList_append] at single
    exact not_nullable_of_single "Future<".toList single
  · intro unmarked
    have marked := (isDartType_marked_iff spelled).mpr ⟨unmarked, typed, valued⟩
    exact isDartType_over "Future".toList (by decide) marked (by simp)

/-- The result of a call is well formed exactly if it is not nullable already. -/
theorem isDartType_result_iff (spelled : IsDartType type) :
    IsDartType (if type == voidType || type == dynamicType then "Future<dynamic>"
      else "Future<" ++ type ++ "?>") ↔ isNullable type = false := by
  split
  · rename_i untyped
    refine iff_of_true ?_ ?_
    · have dynamic : IsDartType dynamicType := isDartType_name (by decide)
      exact isDartType_over "Future".toList (by decide) dynamic (by decide +kernel)
    · rw [Bool.or_eq_true, beq_iff_eq, beq_iff_eq] at untyped
      rcases untyped with rfl | rfl <;> decide
  · rename_i typed
    rw [Bool.or_eq_true, beq_iff_eq, beq_iff_eq, not_or] at typed
    exact isDartType_future_iff spelled typed.2 typed.1

theorem isDartType_stream (spelled : IsDartType type) : IsDartType ("Stream<" ++ type ++ ">") :=
  isDartType_over "Stream".toList (by decide) spelled (by simp)

end Marked

theorem isDartType_builtin : ∀ type ∈ builtinTypes, IsDartType type := by
  have types : builtinTypes =
      ["String", "int", "double", "bool", "void", "List<String>", "List<int>",
        "Map<String, dynamic>", "Map<dynamic, dynamic>", "List<dynamic>", "dynamic"] := by
    decide +kernel
  have list {type : String} (item : String) (named : isIdentifier item.toList = true)
      (text : type.toList = "List".toList ++ '<' :: item.toList ++ ['>']) : IsDartType type :=
    isDartType_over "List".toList (by decide) (isDartType_name named) text
  have map {type : String} (key value : String) (first : isIdentifier key.toList = true)
      (second : isIdentifier value.toList = true)
      (text : type.toList =
        "Map".toList ++ '<' :: (key.toList ++ ',' :: ([' '] ++ value.toList ++ [])) ++ ['>']) :
      IsDartType type := by
    have values := Spells.argument (show [' '].all isSpacing = true by decide)
      (isDartType_name second) (show [].all isSpacing = true from rfl)
    rw [IsDartType, text]
    exact .applied (by decide) (.comma (.sole (isDartType_name first)) values)
  simp only [types, List.forall_mem_cons]
  refine ⟨isDartType_name ?_, isDartType_name ?_, isDartType_name ?_, isDartType_name ?_,
    isDartType_name ?_, list "String" ?_ ?_, list "int" ?_ ?_, map "String" "dynamic" ?_ ?_ ?_,
    map "dynamic" "dynamic" ?_ ?_ ?_, list "dynamic" ?_ ?_, isDartType_name ?_, by simp⟩
  all_goals decide +kernel

theorem isDartType_registered {calls : List (String × String)}
    (formed : ∀ call ∈ calls, IsDartType (trimmed call.2)) (source : String) :
    IsDartType ((TypeMapping.registered calls).dartType source) := by
  rw [TypeMapping.dartType_eq, TypeMapping.lookup_registered]
  cases found : calls.reverse.find? fun call => compact call.1 == lookupKey source with
  | none =>
      rw [Option.map_none, Option.getD_none]
      exact isDartType_builtin _ (builtinType_mem _)
  | some call => exact formed call (List.mem_reverse.mp (List.mem_of_find?_eq_some found))

/-! ## Types of functions -/

theorem parameterType_eq_ite (types : TypeMapping) (source : String) :
    parameterType types source =
      if isMarked source && types.dartType source != dynamicType then types.dartType source ++ "?"
      else types.dartType source := by
  unfold parameterType isMarked
  cases (strip source.toList).getLast? <;> rfl

theorem isDartType_parameterType_iff {types : TypeMapping} {source : String}
    (spelled : IsDartType (types.dartType source)) :
    IsDartType (parameterType types source) ↔
      (isMarked source = true →
        types.dartType source ≠ voidType ∧ isNullable (types.dartType source) = false) := by
  rw [parameterType_eq_ite]
  split
  · rename_i optional
    obtain ⟨marked, typed⟩ : isMarked source = true ∧ types.dartType source ≠ dynamicType := by
      simpa using optional
    rw [isDartType_marked_iff spelled]
    tauto
  · rename_i plain
    refine iff_of_true spelled fun marked => ?_
    have untyped : types.dartType source = dynamicType := by simpa [marked] using plain
    rw [untyped]
    decide

theorem types_listFragments (types : TypeMapping) (parameters : List Parameter) :
    (marks (listFragments types parameters)).filterMap Fragment.type? =
      parameters.map fun parameter => parameterType types parameter.sourceType := by
  rw [marks_listFragments, List.filterMap_flatMap]
  exact (List.map_eq_flatMap ..).symm

theorem types_payloadFragments (parameters : List Parameter) :
    (marks (payloadFragments parameters)).filterMap Fragment.type? = [] := by
  rw [marks_payloadFragments]
  split <;> simp [Fragment.type?]

theorem types_callFragments (conventions : Conventions String) (className : String)
    (callable : Callable) :
    (callFragments conventions className callable).filterMap Fragment.type? =
      let type := conventions.types.dartType callable.returnType
      let untyped := type == voidType || type == dynamicType
      (if untyped then "Future<dynamic>" else "Future<" ++ type ++ "?>")
        :: (callable.parameters.map fun parameter =>
          parameterType conventions.types parameter.sourceType)
        ++ if untyped then [] else [type] := by
  rw [← filterMap_marks fun _ => rfl, marks_callFragments]
  dsimp only
  split <;>
    simp [types_listFragments, types_payloadFragments, List.filterMap_cons, Fragment.type?]

theorem types_subscriptionFragments (conventions : Conventions String) (className : String)
    (callable : Callable) :
    (subscriptionFragments conventions className callable).filterMap Fragment.type? =
      let mapped := conventions.types.dartType callable.returnType
      let type := if mapped == voidType then dynamicType else mapped
      ("Stream<" ++ type ++ ">")
        :: (callable.parameters.map fun parameter =>
          parameterType conventions.types parameter.sourceType)
        ++ if type == dynamicType then [] else [type] := by
  rw [← filterMap_marks fun _ => rfl, marks_subscriptionFragments]
  dsimp only
  split <;> split <;>
    simp [types_listFragments, types_payloadFragments, List.filterMap_cons, Fragment.type?]

section Spelled

variable (conventions : Conventions String)
  (spelled : ∀ source, IsDartType (conventions.types.dartType source))
  (className : String) (callable : Callable)

theorem isDartType_unless {type : String} (spelled : IsDartType type) (untyped : Bool) :
    ∀ written ∈ if untyped then [] else [type], IsDartType written := by
  cases untyped <;> simp [spelled]

include spelled in
theorem isDartType_callFragments_iff :
    (∀ type ∈ (callFragments conventions className callable).filterMap Fragment.type?,
        IsDartType type) ↔
      isNullable (conventions.types.dartType callable.returnType) = false ∧
        ∀ type ∈ callable.parameters.map fun parameter =>
          parameterType conventions.types parameter.sourceType, IsDartType type := by
  have own := spelled callable.returnType
  rw [types_callFragments]
  dsimp only
  rw [List.cons_append, List.forall_mem_cons, List.forall_mem_append, isDartType_result_iff own,
    and_iff_left (isDartType_unless own _)]

include spelled in
theorem isDartType_subscriptionFragments_iff :
    (∀ type ∈ (subscriptionFragments conventions className callable).filterMap Fragment.type?,
        IsDartType type) ↔
      ∀ type ∈ callable.parameters.map fun parameter =>
        parameterType conventions.types parameter.sourceType, IsDartType type := by
  have events : IsDartType
      (if conventions.types.dartType callable.returnType == voidType then dynamicType
        else conventions.types.dartType callable.returnType) := by
    split
    · exact isDartType_name (by decide)
    · exact spelled _
  rw [types_subscriptionFragments]
  dsimp only
  rw [List.cons_append, List.forall_mem_cons, List.forall_mem_append,
    and_iff_right (isDartType_stream events), and_iff_left (isDartType_unless events _)]

end Spelled

/-- With registrations of well-formed types, all types in the text of a function are well formed
exactly if it is not a call with a nullable type and no parameter with the mark of an optional
type has a Dart type that is nullable or has no nullable form. -/
theorem isDartType_memberFragments_iff {calls : List (String × String)}
    (formed : ∀ call ∈ calls, IsDartType (trimmed call.2)) (eventBase className : String)
    (callable : Callable) :
    let types := TypeMapping.registered calls
    let fragments := memberFragments ⟨types, eventBase⟩ className callable
    textOf fragments = (memberFunction ⟨types, eventBase⟩ className callable).toList ∧
      ((∀ type ∈ fragments.filterMap Fragment.type?, IsDartType type) ↔
        (callable.kind = .call → isNullable (types.dartType callable.returnType) = false) ∧
        ∀ parameter ∈ callable.parameters, isMarked parameter.sourceType = true →
          types.dartType parameter.sourceType ≠ voidType ∧
            isNullable (types.dartType parameter.sourceType) = false) := by
  intro types fragments
  refine ⟨textOf_memberFragments _ className callable, ?_⟩
  have spelled : ∀ source, IsDartType (types.dartType source) := isDartType_registered formed
  have parameters : (∀ type ∈ callable.parameters.map fun parameter =>
        parameterType types parameter.sourceType, IsDartType type) ↔
      ∀ parameter ∈ callable.parameters, isMarked parameter.sourceType = true →
        types.dartType parameter.sourceType ≠ voidType ∧
          isNullable (types.dartType parameter.sourceType) = false := by
    rw [List.forall_mem_map]
    exact forall₂_congr fun parameter _ => isDartType_parameterType_iff (spelled _)
  rw [← parameters]
  unfold fragments memberFragments
  cases callable.kind with
  | call =>
      have written := isDartType_callFragments_iff ⟨types, eventBase⟩ spelled className callable
      simpa using written
  | subscription =>
      have written :=
        isDartType_subscriptionFragments_iff ⟨types, eventBase⟩ spelled className callable
      simpa using written

theorem isDartType_open :
    let types := TypeMapping.registered [("UUID", " String ")]
    let callable : Callable := ⟨.call, "open", "UUID", [⟨"id", "UUID?"⟩]⟩
    let fragments := memberFragments ⟨types, "events/"⟩ "Vault" callable
    ∀ type ∈ fragments.filterMap Fragment.type?, IsDartType type := by
  have formed : ∀ call ∈ [("UUID", " String ")], IsDartType (trimmed call.2) := by
    rw [List.forall_mem_singleton]
    exact isDartType_name (by decide +kernel)
  exact (isDartType_memberFragments_iff formed _ _ _).2.mpr (by decide +kernel)

/-- A call whose type is mapped to a nullable one, and an optional parameter without a value. -/
theorem exists_not_isDartType :
    let types := TypeMapping.registered [("UUID", "String?")]
    let callable : Callable := ⟨.call, "find", "UUID", [⟨"after", "Unit?"⟩]⟩
    let fragments := memberFragments ⟨types, "events/"⟩ "Vault" callable
    IsDartType (trimmed "String?") ∧
      "Future<String??>" ∈ fragments.filterMap Fragment.type? ∧ ¬ IsDartType "Future<String??>" ∧
      "void?" ∈ fragments.filterMap Fragment.type? ∧ ¬ IsDartType "void?" := by
  intro types callable fragments
  have string : IsDartType "String" := isDartType_name (by decide +kernel)
  have void : IsDartType voidType := isDartType_name (by decide +kernel)
  have nullable := (isDartType_marked_iff string).mpr (by decide +kernel)
  refine ⟨?_, by decide +kernel, fun future => ?_, by decide +kernel, fun marked => ?_⟩
  · rwa [show trimmed "String?" = "String" ++ "?" by decide +kernel]
  · exact not_single_of_doubled "Future<String".toList ['>'] future.single
  · exact absurd rfl ((isDartType_marked_iff void).mp marked).2.2

end DartBindings.Dart
