import DartBindings.Binding
import DartBindings.Proofs.Source.Token
import DartBindings.Proofs.Text.Classes

/-!
What a library tells of its entities.

The outline of an entity keeps its name and, for each member, the kind, the name, the Dart type of
the result, the Dart types and the names of the parameters, and the native names of parameters
that are sent by name. The text of a library is determined by the outlines of its entities, and
they can be read off the text: whatever stands for a name, a type, a member or a class ends in
a way that nothing in it can be taken for.
-/

set_option autoImplicit false

namespace DartBindings.Dart

open Text Source Bridge CodeText

/-! ## Texts that can be told from what follows -/

/-- The texts of valid items tell the views of the items, also with more text behind them, as long
as that text begins in an admissible way. -/
def Tells {α β : Type} (valid : α → Prop) (follows : List Char → Prop) (text : α → List Char)
    (view : α → β) : Prop :=
  ∀ ⦃first second : α⦄, valid first → valid second → ∀ ⦃rest tail : List Char⦄,
    follows rest → follows tail →
      (text first ++ rest = text second ++ tail ↔ view first = view second ∧ rest = tail)

def BeginsWith (mark : Char) (rest : List Char) : Prop :=
  rest.head? = some mark

section Lists

variable {α β : Type} {valid : α → Prop} {follows : List Char → Prop}
variable {text : α → List Char} {view : α → β}

/-- Items that tell their views do so in a list as well, if the list goes on after an item in an
admissible way, and no item can be taken for what ends the list. -/
theorem Tells.flatMap (final : List Char → Prop) (item : Tells valid follows text view)
    (goesOn : ∀ value rest, follows (text value ++ rest))
    (stops : ∀ rest, final rest → follows rest)
    (apart : ∀ value rest, ¬ final (text value ++ rest)) :
    Tells (fun items => ∀ value ∈ items, valid value) final (List.flatMap text)
      (List.map view) := by
  have continued (items : List α) (after : List Char) (ends : final after) :
      follows (items.flatMap text ++ after) := by
    cases items with
    | nil => exact stops after ends
    | cons value items =>
        rw [List.flatMap_cons, List.append_assoc]
        exact goesOn value _
  intro first second here there rest tail ends others
  induction first generalizing second with
  | nil =>
      cases second with
      | nil => simp
      | cons value items =>
          simp only [List.flatMap_nil, List.nil_append, List.flatMap_cons, List.append_assoc,
            List.map_nil, List.map_cons, reduceCtorEq, false_and, iff_false]
          rintro rfl
          exact apart value _ ends
  | cons value items ih =>
      cases second with
      | nil =>
          simp only [List.flatMap_nil, List.nil_append, List.flatMap_cons, List.append_assoc,
            List.map_nil, List.map_cons, reduceCtorEq, false_and, iff_false]
          rintro rfl
          exact apart value _ others
      | cons other items' =>
          obtain ⟨valued, valuedItems⟩ := List.forall_mem_cons.mp here
          obtain ⟨othered, otheredItems⟩ := List.forall_mem_cons.mp there
          simp only [List.flatMap_cons, List.append_assoc, List.map_cons, List.cons.injEq]
          rw [item valued othered (continued items rest ends) (continued items' tail others),
            ih valuedItems otheredItems, and_assoc]

theorem Tells.after (before : List Char) (item : Tells valid follows text view) :
    Tells valid follows (fun value => before ++ text value) view := by
  intro first second here there rest tail ends other
  rw [List.append_assoc, List.append_assoc, List.append_cancel_left_eq]
  exact item here there ends other

end Lists

/-- A list of texts with one separator. -/
theorem toList_intercalate_cons (separator first : String) (rest : List String) :
    (separator.intercalate (first :: rest)).toList =
      first.toList ++ rest.flatMap fun item => separator.toList ++ item.toList := by
  rw [String.toList_intercalate]
  induction rest generalizing first with
  | nil => simp
  | cons next rest ih =>
      rw [List.map_cons, List.map_cons, List.intercalate_cons_cons, ← List.map_cons, ih next,
        List.flatMap_cons, List.append_assoc, List.append_assoc]

/-! ## Names and types -/

theorem tells_word : Tells (fun name : String => IsWord name.toList) EndsWord String.toList id := by
  intro first second here there rest tail ends other
  constructor
  · intro same
    have words := congrArg (List.takeWhile isWordChar) same
    rw [takeWhile_isWordChar here.chars ends, takeWhile_isWordChar there.chars other] at words
    rw [words, List.append_cancel_left_eq] at same
    exact ⟨String.toList_injective words, same⟩
  · rintro ⟨rfl, rfl⟩
    rfl

theorem isWord_escapeReserved {name : String} (named : IsWord name.toList) :
    IsWord (escapeReserved name).toList := by
  unfold escapeReserved
  split
  · rw [String.toList_append]
    refine ⟨by simp, fun c member => ?_⟩
    rcases List.mem_append.mp member with own | mark
    · exact named.chars c own
    · rw [show "_".toList = ['_'] from rfl, List.mem_singleton] at mark
      subst mark
      decide +kernel
  · exact named

/-- The Dart types of native types for which no mapping is registered. -/
def builtinTypes : List String :=
  (primitiveTypes.map (·.2) ++ genericTypes.map (·.2)
    ++ [mapType, listType, dynamicType]).eraseDups

theorem mem_of_lookup {α β : Type} [BEq α] [LawfulBEq α] {entries : List (α × β)} {key : α}
    {value : β} (found : entries.lookup key = some value) : value ∈ entries.map (·.2) := by
  obtain ⟨before, after, rfl, -⟩ := List.lookup_eq_some_iff.mp found
  simp

theorem builtinType_mem (bare : List Char) : builtinType bare ∈ builtinTypes := by
  unfold builtinType builtinTypes
  rw [List.mem_eraseDups]
  split
  · rename_i type found
    exact List.mem_append_left _ (List.mem_append_left _ (mem_of_lookup found))
  · split
    · rename_i type found
      exact List.mem_append_left _ (List.mem_append_right _ (mem_of_lookup found))
    · refine List.mem_append_right _ ?_
      split
      · exact List.mem_cons_self
      · split <;> simp

theorem dartType_mem (source : String) : TypeMapping.empty.dartType source ∈ builtinTypes := by
  unfold TypeMapping.dartType TypeMapping.empty
  dsimp only
  rw [List.lookup_nil, Option.getD_none]
  exact builtinType_mem _

/-- No such Dart type begins with another one. -/
theorem builtinTypes_apart : ∀ first ∈ builtinTypes, ∀ second ∈ builtinTypes,
    first.toList <+: second.toList → first = second := by
  decide +kernel

theorem tells_type {first second : String} (here : first ∈ builtinTypes)
    (there : second ∈ builtinTypes) {rest tail : List Char} :
    first.toList ++ rest = second.toList ++ tail ↔ first = second ∧ rest = tail := by
  constructor
  · intro same
    have begins : first.toList <+: second.toList ++ tail := ⟨rest, same⟩
    have types : first = second := by
      rcases List.prefix_or_prefix_of_prefix begins (List.prefix_append _ _) with shorter | longer
      · exact builtinTypes_apart first here second there shorter
      · exact (builtinTypes_apart second there first here longer).symm
    subst types
    exact ⟨rfl, List.append_cancel_left same⟩
  · rintro ⟨rfl, rfl⟩
    rfl

theorem builtinTypes_head : ∀ type ∈ builtinTypes, type.toList.head?.any isWordChar = true := by
  decide +kernel

/-! ## Parameters and payloads -/

/-- The Dart type and the Dart name of a parameter. -/
structure ParameterOutline where
  type : String
  name : String
  deriving DecidableEq, Repr

def parameterOutline (types : TypeMapping) (parameter : Parameter) : ParameterOutline :=
  ⟨parameterType types parameter.sourceType, escapeReserved parameter.name⟩

/-- The name of the parameter is a word. -/
def Named (parameter : Parameter) : Prop :=
  IsWord parameter.name.toList

/-- The mark of a nullable type, if the type of the parameter gets one. -/
def nullableMark (sourceType : String) : String :=
  let optional := ((Text.strip sourceType.toList).getLast?.map isOptionalMark).getD false
  if optional && TypeMapping.empty.dartType sourceType != dynamicType then "?" else ""

theorem parameterType_eq (sourceType : String) :
    parameterType .empty sourceType =
      TypeMapping.empty.dartType sourceType ++ nullableMark sourceType := by
  unfold parameterType nullableMark
  dsimp only
  split
  · rfl
  · rw [String.append_empty]

theorem nullableMark_cases (sourceType : String) :
    nullableMark sourceType = "" ∨ nullableMark sourceType = "?" := by
  unfold nullableMark
  dsimp only
  split
  · exact .inr rfl
  · exact .inl rfl

theorem tells_mark :
    Tells (fun mark => mark = "" ∨ mark = "?") (BeginsWith ' ') String.toList
      id := by
  intro first second here there rest tail ends other
  obtain ⟨rest, rfl⟩ := List.head?_eq_some_iff.mp ends
  obtain ⟨tail, rfl⟩ := List.head?_eq_some_iff.mp other
  rcases here with rfl | rfl <;> rcases there with rfl | rfl <;> simp

theorem tells_parameterType :
    Tells (fun _ => True) (BeginsWith ' ')
      (fun sourceType => (parameterType .empty sourceType).toList) (parameterType .empty) := by
  intro first second _ _ rest tail ends other
  have marks := tells_mark (nullableMark_cases first) (nullableMark_cases second)
  have types := @tells_type _ _ (dartType_mem first) (dartType_mem second)
  simp only [parameterType_eq, ← String.toList_inj, String.toList_append, List.append_assoc]
  rw [types, types, marks ends other]
  simp only [id, String.toList_inj, and_assoc]

def parameterText (types : TypeMapping) (parameter : Parameter) : String :=
  parameterType types parameter.sourceType ++ " " ++ escapeReserved parameter.name

theorem tells_parameter :
    Tells Named EndsWord (fun parameter => (parameterText .empty parameter).toList)
      (parameterOutline .empty) := by
  intro first second here there rest tail ends other
  have types {rest tail : List Char} :
      (parameterType .empty first.sourceType).toList ++ (" ".toList ++ rest) =
          (parameterType .empty second.sourceType).toList ++ (" ".toList ++ tail) ↔
        parameterType .empty first.sourceType = parameterType .empty second.sourceType ∧
          rest = tail := by
    have blank (text : List Char) : BeginsWith ' ' (" ".toList ++ text) := rfl
    rw [tells_parameterType trivial trivial (blank _) (blank _), List.append_cancel_left_eq]
  have names := tells_word (isWord_escapeReserved here) (isWord_escapeReserved there) ends other
  simp only [parameterText, String.toList_append, List.append_assoc]
  rw [types, names]
  simp only [id, parameterOutline, ParameterOutline.mk.injEq, and_assoc]

/-- Items with commas before them, up to a mark that is no comma and part of no word. -/
theorem tells_commas {α β : Type} {valid : α → Prop} {text : α → String} {view : α → β}
    (item : Tells valid EndsWord (fun value => (text value).toList) view) {mark : Char}
    (noWord : isWordChar mark = false) (noComma : mark ≠ ',') :
    Tells (fun items => ∀ value ∈ items, valid value) (BeginsWith mark)
      (List.flatMap fun value => ", ".toList ++ (text value).toList) (List.map view) := by
  refine (item.after ", ".toList).flatMap (BeginsWith mark) ?_ ?_ ?_
  · exact fun value rest => endsWord_cons (by decide) _
  · intro rest closes
    obtain ⟨rest, rfl⟩ := List.head?_eq_some_iff.mp closes
    exact endsWord_cons noWord rest
  · intro value rest closes
    exact noComma (Option.some.inj closes).symm

theorem endsWord_commas {α : Type} (items : List α) (text : α → String) {mark : Char}
    {rest : List Char} (noWord : isWordChar mark = false) (closes : BeginsWith mark rest) :
    EndsWord ((items.flatMap fun value => ", ".toList ++ (text value).toList) ++ rest) := by
  cases items with
  | nil =>
      obtain ⟨rest, rfl⟩ := List.head?_eq_some_iff.mp closes
      exact endsWord_cons noWord rest
  | cons value items => exact endsWord_cons (by decide) _

/-- Two lists of items between commas, neither of which is empty. -/
theorem tells_intercalate {α β : Type} {valid : α → Prop} {text : α → String} {view : α → β}
    (item : Tells valid EndsWord (fun value => (text value).toList) view) {mark : Char}
    (noWord : isWordChar mark = false) (noComma : mark ≠ ',') {first second : α}
    {items others : List α} (here : ∀ value ∈ first :: items, valid value)
    (there : ∀ value ∈ second :: others, valid value) {rest tail : List Char}
    (closes : BeginsWith mark rest) (closed : BeginsWith mark tail) :
    (", ".intercalate ((first :: items).map text)).toList ++ rest =
        (", ".intercalate ((second :: others).map text)).toList ++ tail ↔
      (first :: items).map view = (second :: others).map view ∧ rest = tail := by
  obtain ⟨firstValid, itemsValid⟩ := List.forall_mem_cons.mp here
  obtain ⟨secondValid, othersValid⟩ := List.forall_mem_cons.mp there
  have heads := item firstValid secondValid (endsWord_commas items text noWord closes)
    (endsWord_commas others text noWord closed)
  have tails := tells_commas item noWord noComma itemsValid othersValid closes closed
  rw [List.map_cons, List.map_cons, toList_intercalate_cons, toList_intercalate_cons,
    List.flatMap_map, List.flatMap_map, List.append_assoc, List.append_assoc, heads, tails,
    List.map_cons, List.map_cons, List.cons.injEq, and_assoc]

theorem tells_parameterList :
    Tells (fun parameters => ∀ parameter ∈ parameters, Named parameter) (BeginsWith ')')
      (fun parameters => (parameterList .empty parameters).toList)
      (List.map (parameterOutline .empty)) := by
  -- no Dart type begins with the parenthesis that would end an empty list
  have apart (parameter : Parameter) (parameters : List Parameter) (rest tail : List Char)
      (closes : BeginsWith ')' rest) :
      rest ≠ (parameterList .empty (parameter :: parameters)).toList ++ tail := by
    rintro rfl
    have begins := builtinTypes_head _ (dartType_mem parameter.sourceType)
    obtain ⟨c, head, word⟩ := (Option.any_eq_true _ _).mp begins
    obtain ⟨others, type⟩ := List.head?_eq_some_iff.mp head
    rw [parameterList, List.map_cons, toList_intercalate_cons, parameterType_eq,
      String.toList_append, String.toList_append, String.toList_append, type] at closes
    exact ne_of_class word (by decide) (Option.some.inj closes)
  intro first second here there rest tail closes closed
  match first, second with
  | [], [] => simp
  | [], parameter :: parameters =>
      simp only [List.map_nil, List.map_cons, reduceCtorEq, false_and, iff_false]
      exact apart parameter parameters rest tail closes
  | parameter :: parameters, [] =>
      simp only [List.map_nil, List.map_cons, reduceCtorEq, false_and, iff_false]
      exact (apart parameter parameters tail rest closed).symm
  | _ :: _, _ :: _ =>
      exact tells_intercalate tells_parameter rfl (by decide) here there closes closed

/-- The native names of parameters that are sent by name. -/
def sentKeys : List Parameter → List String
  | first :: second :: rest => (first :: second :: rest).map (·.name)
  | _ => []

theorem tells_payloadEntry :
    Tells Named EndsWord (fun parameter => (payloadEntry parameter).toList) (·.name) := by
  intro first second here there rest tail ends other
  have ends (text : List Char) : EndsWord ("'".toList ++ text) := endsWord_cons (by decide) text
  simp only [payloadEntry, quoted, String.toList_append, List.append_assoc,
    List.append_cancel_left_eq]
  refine (tells_word here there (ends _) (ends _)).trans (and_congr_right fun names => ?_)
  dsimp only [id] at names
  simp only [names, List.append_cancel_left_eq]

section Payloads

variable {first second : List Parameter}
variable (same : first.map (escapeReserved ·.name) = second.map (escapeReserved ·.name))
include same

theorem isEmpty_payload : (payload first).isEmpty = (payload second).isEmpty := by
  match first, second with
  | [], [] => rfl
  | [_], [_] =>
      simp only [List.map_cons, List.map_nil, List.cons.injEq, and_true] at same
      simp only [payload, same]
  | _ :: _ :: _, _ :: _ :: _ =>
      have braced (text : String) : ("\x7b" ++ text ++ "\x7d").isEmpty = false := by simp
      simp only [payload, braced]
  | [], _ :: _ => cases same
  | _ :: _, [] => cases same
  | [_], _ :: _ :: _ => simp at same
  | _ :: _ :: _, [_] => simp at same

/-- Payloads of parameters with the same Dart names tell which native names they send. -/
theorem tells_payload (here : ∀ parameter ∈ first, Named parameter)
    (there : ∀ parameter ∈ second, Named parameter) (rest tail : List Char) :
    (payload first).toList ++ rest = (payload second).toList ++ tail ↔
      sentKeys first = sentKeys second ∧ rest = tail := by
  match first, second with
  | [], [] => simp [sentKeys]
  | [_], [_] =>
      simp only [List.map_cons, List.map_nil, List.cons.injEq, and_true] at same
      simp [payload, same, sentKeys]
  | one :: two :: more, another :: next :: others =>
      have closes (text : List Char) : BeginsWith '\x7d' ("\x7d".toList ++ text) := rfl
      simp only [payload, String.toList_append, List.append_assoc, List.append_cancel_left_eq]
      rw [tells_intercalate tells_payloadEntry (by decide) (by decide) here there (closes rest)
        (closes tail), List.append_cancel_left_eq]
      rfl
  | [], _ :: _ => cases same
  | _ :: _, [] => cases same
  | [_], _ :: _ :: _ => simp at same
  | _ :: _ :: _, [_] => simp at same

end Payloads

/-! ## Members -/

/-- The Dart type that the result of a member counts as. -/
def resultType (type : String) : String :=
  if type == voidType then dynamicType else type

theorem resultType_mem {type : String} (mapped : type ∈ builtinTypes) :
    resultType type ∈ builtinTypes := by
  unfold resultType
  split
  · decide +kernel
  · exact mapped

/-- What the function of a member tells of it. -/
structure CallableOutline where
  kind : CallableKind
  name : String
  result : String
  parameters : List ParameterOutline
  keys : List String
  deriving DecidableEq, Repr

def callableOutline (types : TypeMapping) (callable : Callable) : CallableOutline where
  kind := callable.kind
  name := callable.name
  result := resultType (types.dartType callable.returnType)
  parameters := callable.parameters.map (parameterOutline types)
  keys := sentKeys callable.parameters

/-- The names of the member and of its parameters are words. -/
structure NamedMember (callable : Callable) : Prop where
  own : IsWord callable.name.toList
  parameters : ∀ parameter ∈ callable.parameters, Named parameter

/-- A result that does not count as dynamic has a type of its own. -/
theorem resultType_of_ne {type : String} (valued : ¬ (resultType type == dynamicType) = true) :
    resultType type = type := by
  unfold resultType at valued ⊢
  split
  · rename_i void
    rw [if_pos void] at valued
    exact absurd (beq_self_eq_true _) valued
  · rfl

def announcement : CallableKind → String
  | .call => "  /// Calls native "
  | .subscription => "  /// Subscribes to native "

/-- What stands between the announcement of a function and its result type. -/
def resultOpening : CallableKind → String
  | .call => "  static " ++ "Future<"
  | .subscription => "  static Stream<"

/-- What stands between the result type of a function and its name. -/
def resultClosing (result : String) : CallableKind → String
  | .call => (if result == dynamicType then ">" else "?>") ++ " "
  | .subscription => "> "

/-- What stands between the parameters of a function and the payload that it sends. -/
def invocation (base target result : String) (silent : Bool) : CallableKind → String
  | .call =>
    let method := if result == dynamicType then "invokeMethod" else "invokeMethod<" ++ result ++ ">"
    " async \x7b\n" ++ "    return _channel." ++ method ++ "(" ++ quoted target
      ++ if silent then "" else ", "
  | .subscription =>
    " \x7b\n" ++ "    return const EventChannel(" ++ quoted (base ++ target)
      ++ ").receiveBroadcastStream("

/-- What stands after the payload. -/
def completion (result : String) : CallableKind → String
  | .call => ");\n" ++ "  \x7d"
  | .subscription =>
    (if result == dynamicType then ")" else ")" ++ ".cast<" ++ result ++ ">()")
      ++ ";\n" ++ "  \x7d"

theorem memberFunction_eq (conventions : Conventions String) (className : String)
    (callable : Callable) :
    memberFunction conventions className callable =
      announcement callable.kind ++ className ++ "." ++ callable.name ++ "\n"
        ++ resultOpening callable.kind
        ++ resultType (conventions.types.dartType callable.returnType)
        ++ resultClosing (resultType (conventions.types.dartType callable.returnType)) callable.kind
        ++ callable.name ++ "(" ++ parameterList conventions.types callable.parameters ++ ")"
        ++ invocation conventions.eventBase (target className callable)
          (resultType (conventions.types.dartType callable.returnType))
          (payload callable.parameters).isEmpty callable.kind
        ++ payload callable.parameters
        ++ completion (resultType (conventions.types.dartType callable.returnType))
          callable.kind := by
  have untyped (type : String) :
      (type == voidType || type == dynamicType) = (resultType type == dynamicType) := by
    unfold resultType
    split
    · rename_i void
      simp [void]
    · rename_i valued
      simp [valued]
  have arguments (target sent : String) :
      (if sent.isEmpty then target else target ++ ", " ++ sent) =
        target ++ (if sent.isEmpty then "" else ", ") ++ sent := by
    split
    · rename_i silent
      rw [String.isEmpty_iff.mp silent, String.append_empty, String.append_empty]
    · rfl
  obtain ⟨kind, name, returnType, parameters⟩ := callable
  cases kind with
  | call =>
      unfold memberFunction callFunction announcement resultOpening resultClosing invocation
        completion invocationArguments target
      dsimp only
      generalize conventions.types.dartType returnType = type
      have opened : ") async \x7b\n" = ")" ++ " async \x7b\n" := by decide
      rw [untyped, arguments]
      split
      · rename_i dynamic
        have same : "Future<dynamic>" = "Future<" ++ resultType type ++ ">" := by
          rw [eq_of_beq dynamic]
          decide
        simp only [same, opened, ofString_string, String.append_assoc]
      · rename_i valued
        rw [resultType_of_ne valued]
        simp only [opened, ofString_string, String.append_assoc]
  | subscription =>
      unfold memberFunction subscriptionFunction announcement resultOpening resultClosing
        invocation completion
      dsimp only [target]
      generalize conventions.types.dartType returnType = type
      have typed : (if type == voidType then dynamicType else type) = resultType type := rfl
      have opened : ") \x7b\n" = ")" ++ " \x7b\n" := by decide
      rw [typed, opened]
      split <;> simp only [ofString_string, String.append_assoc, String.empty_append]

theorem tells_announcement :
    Tells (fun _ => True) (fun _ => True) (fun kind => (announcement kind).toList) id := by
  intro first second _ _ rest tail _ _
  cases first <;> cases second <;> simp [announcement]

/-- The function of a member tells the outline of the member. Its parts are compared in order,
each with the knowledge that those before it agree. -/
theorem tells_memberFunction (base className : String) :
    Tells NamedMember (fun _ => True)
      (fun callable => (memberFunction ⟨.empty, base⟩ className callable).toList)
      (callableOutline .empty) := by
  intro first second here there rest tail _ _
  have kinds {rest tail : List Char} : (announcement first.kind).toList ++ rest =
      (announcement second.kind).toList ++ tail ↔ first.kind = second.kind ∧ rest = tail :=
    tells_announcement trivial trivial trivial trivial
  have lineEnds (text : List Char) : EndsWord ("\n".toList ++ text) :=
    endsWord_cons (by decide) text
  have names {rest tail : List Char} : first.name.toList ++ ("\n".toList ++ rest) =
      second.name.toList ++ ("\n".toList ++ tail) ↔ first.name = second.name ∧ rest = tail := by
    rw [tells_word here.own there.own (lineEnds _) (lineEnds _), List.append_cancel_left_eq, id, id]
  have results := @tells_type _ _ (resultType_mem (dartType_mem first.returnType))
    (resultType_mem (dartType_mem second.returnType))
  have closes (text : List Char) : BeginsWith ')' (")".toList ++ text) := rfl
  have lists {rest tail : List Char} :
      (parameterList .empty first.parameters).toList ++ (")".toList ++ rest) =
          (parameterList .empty second.parameters).toList ++ (")".toList ++ tail) ↔
        first.parameters.map (parameterOutline .empty) =
          second.parameters.map (parameterOutline .empty) ∧ rest = tail := by
    rw [tells_parameterList here.parameters there.parameters (closes _) (closes _),
      List.append_cancel_left_eq]
  simp only [memberFunction_eq, String.toList_append, List.append_assoc, callableOutline,
    CallableOutline.mk.injEq, and_assoc]
  rw [kinds]
  refine and_congr_right fun kind => ?_
  rw [List.append_cancel_left_eq, List.append_cancel_left_eq, names]
  refine and_congr_right fun name => ?_
  rw [kind, List.append_cancel_left_eq, results]
  refine and_congr_right fun result => ?_
  rw [result, name, List.append_cancel_left_eq, List.append_cancel_left_eq,
    List.append_cancel_left_eq, lists]
  refine and_congr_right fun parameters => ?_
  have targets : target className first = target className second := by
    rw [target, target, name]
  have escaped : first.parameters.map (escapeReserved ·.name) =
      second.parameters.map (escapeReserved ·.name) := by
    simpa only [List.map_map, Function.comp_def, parameterOutline] using
      congrArg (List.map ParameterOutline.name) parameters
  rw [targets, isEmpty_payload escaped, List.append_cancel_left_eq,
    tells_payload escaped here.parameters there.parameters, List.append_cancel_left_eq]

/-! ## Classes and libraries -/

structure EntityOutline where
  name : String
  callables : List CallableOutline
  deriving DecidableEq, Repr

def entityOutline (types : TypeMapping) (entity : Entity) : EntityOutline :=
  ⟨entity.name, entity.callables.map (callableOutline types)⟩

/-- The names of the entity, of its members and of their parameters are words. -/
structure NamedEntity (entity : Entity) : Prop where
  own : IsWord entity.name.toList
  callables : ∀ callable ∈ entity.callables, NamedMember callable

theorem proxyClass_eq (conventions : Conventions String) (entity : Entity) :
    (proxyClass conventions entity).toList =
      "/// Generated bridge for ".toList ++ (entity.name.toList ++ ("\n".toList
        ++ ("class ".toList ++ (entity.name.toList ++ (" \x7b".toList ++ ("\n".toList
        ++ ("  ".toList ++ (entity.name.toList ++ ("._();".toList
        ++ ((entity.callables.flatMap fun callable => "\n".toList ++ ("\n".toList
            ++ (memberFunction conventions entity.name callable).toList))
        ++ ("\n".toList ++ ("\x7d".toList ++ "\n".toList)))))))))))) := by
  unfold proxyClass
  dsimp only
  rw [String.toList_append, List.append_assoc, List.map_cons, List.cons_append, intercalate_string,
    toList_intercalate_cons]
  simp only [ofString_string, List.flatMap_append, List.map_cons, List.map_nil, List.flatMap_cons,
    List.flatMap_nil, List.flatMap_assoc, String.toList_append, String.toList_empty,
    List.append_assoc, List.append_nil]

theorem tells_proxyClass (base : String) :
    Tells NamedEntity (fun _ => True) (fun entity => (proxyClass ⟨.empty, base⟩ entity).toList)
      (entityOutline .empty) := by
  intro first second here there rest tail _ _
  have lineEnds (text : List Char) : EndsWord ("\n".toList ++ text) :=
    endsWord_cons (by decide) text
  simp only [proxyClass_eq, List.append_assoc, entityOutline, EntityOutline.mk.injEq, and_assoc]
  rw [List.append_cancel_left_eq]
  refine (tells_word here.own there.own (lineEnds _) (lineEnds _)).trans
    (and_congr_right fun names => ?_)
  dsimp only [id] at names
  simp only [names, List.append_cancel_left_eq]
  have members := ((tells_memberFunction base second.name).after "\n".toList).after "\n".toList
  have listed := members.flatMap
    (fun rest => ∃ after, rest = "\n".toList ++ ("\x7d".toList ++ after))
    (fun _ _ => trivial) (fun _ _ => trivial) ?_
  · rw [listed here.callables there.callables ⟨_, rfl⟩ ⟨_, rfl⟩]
    simp only [List.append_cancel_left_eq]
  · rintro value rest ⟨after, same⟩
    rw [List.append_assoc, List.append_assoc, List.append_cancel_left_eq] at same
    cases List.head_eq_of_cons_eq same

theorem library_eq (conventions : Conventions String) (channel : String) (entities : List Entity) :
    (library conventions channel entities).toList =
      (libraryOf channel []).toList ++ entities.flatMap fun entity =>
        "\n".toList ++ (proxyClass conventions entity).toList := by
  unfold library libraryOf preamble
  rw [List.append_nil, List.cons_append, intercalate_string, intercalate_string,
    toList_intercalate_cons, toList_intercalate_cons,
    List.flatMap_append, List.append_assoc, List.flatMap_map]

/-- Two libraries with the same channels have the same text exactly when their entities have the
same outlines. -/
theorem library_eq_iff (base channel : String) {first second : List Entity}
    (here : ∀ entity ∈ first, NamedEntity entity) (there : ∀ entity ∈ second, NamedEntity entity) :
    library ⟨.empty, base⟩ channel first = library ⟨.empty, base⟩ channel second ↔
      first.map (entityOutline .empty) = second.map (entityOutline .empty) := by
  have classes := ((tells_proxyClass base).after "\n".toList).flatMap (· = [])
    (fun _ _ => trivial) (fun _ _ => trivial) (by simp)
  have told := classes here there rfl rfl
  rw [List.append_nil, List.append_nil, eq_self, and_true] at told
  rw [← String.toList_inj, library_eq, library_eq, List.append_cancel_left_eq, told]

/-- A member with two parameters, one of which may have a reserved name. -/
def meter (native type : String) : Entity :=
  ⟨"Meter", [⟨.call, "read", type, [⟨"at", type⟩, ⟨native, "Map<String, Any>?"⟩]⟩], .android⟩

theorem namedEntity_meter (type : String) {native : String} (named : IsWord native.toList) :
    ∀ entity ∈ [meter native type], NamedEntity entity := by
  have className : IsWord "Meter".toList := by decide +kernel
  have memberName : IsWord "read".toList := by decide +kernel
  have first : Named ⟨"at", type⟩ := show IsWord "at".toList by decide +kernel
  have second : Named ⟨native, "Map<String, Any>?"⟩ := named
  have parameters := List.forall_mem_cons.mpr ⟨first, List.forall_mem_singleton.mpr second⟩
  exact List.forall_mem_singleton.mpr
    ⟨className, List.forall_mem_singleton.mpr ⟨memberName, parameters⟩⟩

/-- Integers of two widths have one Dart type. A reserved name and the name that it is escaped to
are one Dart name, but what is sent still tells them apart. -/
theorem library_meters :
    (∀ entity ∈ [meter "in" "Int"], NamedEntity entity) ∧
    (∀ entity ∈ [meter "in" "Long"], NamedEntity entity) ∧
    (∀ entity ∈ [meter "in_" "Int"], NamedEntity entity) ∧
    library defaultConventions defaultChannel [meter "in" "Int"] =
      library defaultConventions defaultChannel [meter "in" "Long"] ∧
    library defaultConventions defaultChannel [meter "in" "Int"] ≠
      library defaultConventions defaultChannel [meter "in_" "Int"] := by
  have plain : IsWord "in".toList := by decide +kernel
  have marked : IsWord "in_".toList := by decide +kernel
  have int := namedEntity_meter "Int" plain
  have long := namedEntity_meter "Long" plain
  have escaped := namedEntity_meter "Int" marked
  refine ⟨int, long, escaped, ?_, fun same => ?_⟩
  · exact (library_eq_iff _ _ int long).mpr (by decide +kernel)
  · exact absurd ((library_eq_iff _ _ int escaped).mp same) (by decide +kernel)

end DartBindings.Dart
