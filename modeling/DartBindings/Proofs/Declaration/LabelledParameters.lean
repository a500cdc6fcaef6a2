import DartBindings.Proofs.Declaration.Loose
import DartBindings.Proofs.Declaration.PrintedParameters
import DartBindings.Proofs.Declaration.RoundTrip
import Mathlib.Data.List.Nodup

/-!
Labelled parameters. A parameter may have a label for its callers before its own name, and is
declared by its name alone. A name that is not needed is written as the wildcard, as often as it
occurs, so the names of a callable are unique exactly if at most one of them is the wildcard.
-/

set_option autoImplicit false

namespace DartBindings.Declaration

open Text Source Bridge

/-! ## Descriptions -/

/-- A parameter, with a label before its name if there is one. -/
structure LabelledParameter extends ParameterText where
  label : Option String
  deriving Repr

structure LabelledMember where
  markings : List Marking
  modifiers : List String
  name : String
  parameters : List LabelledParameter
  result : Option TypeTree
  deriving Repr

structure LabelledClass where
  marked : Bool
  name : String
  members : List LabelledMember
  deriving Repr

/-! ## Writing -/

/-- The parameter as it is printed: `label name: Type`. -/
def LabelledParameter.printed (item : LabelledParameter) : PrintedParameter where
  before := []
  labels := item.label.toList.map fun label => (label.toList, [' '])
  name := item.name.toList
  beforeColon := []
  afterColon := [' ']
  type := item.type.spelling
  default := none
  after := []

/-- The parameter with its label in the place of the name, before the name. -/
def LabelledParameter.written (item : LabelledParameter) : ParameterText :=
  { item.toParameterText with
    name := String.ofList (labelled item.printed.labels ++ item.printed.name) }

def LabelledMember.text (write : LabelledParameter → ParameterText) (member : LabelledMember) :
    MemberText :=
  ⟨member.markings, member.modifiers, member.name, member.parameters.map write, member.result⟩

def LabelledMember.plain (member : LabelledMember) : MemberText :=
  member.text LabelledParameter.toParameterText

def LabelledMember.written (member : LabelledMember) : MemberText :=
  member.text LabelledParameter.written

def LabelledClass.plain (entry : LabelledClass) : ClassText :=
  ⟨entry.marked, entry.name, entry.members.map LabelledMember.plain⟩

def LabelledClass.written (entry : LabelledClass) : ClassText :=
  ⟨entry.marked, entry.name, entry.members.map LabelledMember.written⟩

/-! ## Canonical form -/

structure LabelledParameter.Spelled (item : LabelledParameter) : Prop where
  plain : item.toParameterText.Spelled
  label : ∀ label ∈ item.label, IsWord label.toList

/-- The member is in canonical form without the labels, and each label is a word. -/
structure LabelledMember.Canonical (dialect : Dialect) (member : LabelledMember) : Prop where
  plain : member.plain.Canonical dialect
  labels : ∀ item ∈ member.parameters, ∀ label ∈ item.label, IsWord label.toList

structure LabelledClass.Canonical (dialect : Dialect) (entry : LabelledClass) : Prop where
  plain : entry.plain.Canonical dialect
  labels : ∀ member ∈ entry.members, ∀ item ∈ member.parameters, ∀ label ∈ item.label,
    IsWord label.toList

theorem ParameterText.Spelled.word {name type : String} (named : IsWord name.toList)
    (typed : IsWord type.toList) : ParameterText.Spelled ⟨name, .name type⟩ :=
  ⟨named, .name typed⟩

theorem LabelledMember.Canonical.spelled {dialect : Dialect} {member : LabelledMember}
    (canonical : member.Canonical dialect) : ∀ item ∈ member.parameters, item.Spelled :=
  fun item among => ⟨canonical.plain.parameters _ (List.mem_map_of_mem among),
    canonical.labels item among⟩

theorem LabelledClass.Canonical.members {dialect : Dialect} {entry : LabelledClass}
    (canonical : entry.Canonical dialect) : ∀ member ∈ entry.members, member.Canonical dialect :=
  fun member among => ⟨canonical.plain.members _ (List.mem_map_of_mem among),
    canonical.labels member among⟩

/-! ## One parameter -/

section Parameter

variable {item : LabelledParameter}

theorem LabelledParameter.spelling_written (item : LabelledParameter) :
    item.written.spelling = item.printed.declaration := by
  simp [ParameterText.spelling_eq, written, printed, PrintedParameter.declaration]

theorem LabelledParameter.declared_printed (item : LabelledParameter) :
    item.printed.declared = item.declared := by
  simp [PrintedParameter.declared, ParameterText.declared, printed]

theorem LabelledParameter.Spelled.printed (spelled : item.Spelled) (allowed : Char → Bool) :
    item.printed.Written IsBlanks allowed where
  before := nofun
  labels := by
    have blank : IsBlanks [' '] := List.forall_mem_singleton.mpr rfl
    simpa [LabelledParameter.printed] using fun label stated => ⟨spelled.label label stated, blank⟩
  name := spelled.plain.name
  beforeColon := nofun
  afterColon := List.forall_mem_singleton.mpr rfl
  type := spelled.plain.type.spaced
  default := nofun
  after := nofun

theorem LabelledParameter.Spelled.nested (spelled : item.Spelled) :
    Nested true item.written.spelling := by
  have plain : Nested true item.toParameterText.spelling := spelled.plain.nested
  rw [ParameterText.spelling_eq] at plain
  rw [item.spelling_written]
  cases stated : item.label with
  | none => simpa [PrintedParameter.declaration, LabelledParameter.printed, labelled, stated]
  | some label =>
      have word : Nested true label.toList := Nested.word (spelled.label label stated).chars
      simpa [PrintedParameter.declaration, LabelledParameter.printed, labelled, stated] using
        word.append (Nested.blank.append plain)

theorem startsPlain_word {word : List Char} (named : IsWord word) (rest : List Char) :
    StartsPlain (word ++ rest) := by
  obtain ⟨c, word, rfl⟩ := List.exists_cons_of_ne_nil named.nonempty
  have first := named.chars c List.mem_cons_self
  exact startsPlain_cons.mpr
    ⟨ne_of_class first (by decide), fun blank => absurd blank (ne_of_class first (by decide))⟩

/-- A label and a name stand apart by a blank, which no parenthesis follows. -/
theorem LabelledParameter.Spelled.loose (spelled : item.Spelled) :
    Source.Loose item.written.spelling := by
  have plain : Source.Loose item.toParameterText.spelling := spelled.plain.tight.loose
  rw [ParameterText.spelling_eq] at plain
  rw [item.spelling_written]
  cases stated : item.label with
  | none => simpa [PrintedParameter.declaration, LabelledParameter.printed, labelled, stated]
  | some label =>
      have word : Source.Loose label.toList := (tight_word (spelled.label label stated).chars).loose
      have apart := startsPlain_word spelled.plain.name ([':'] ++ ([' '] ++ item.type.spelling))
      have later := loose_cons (c := ' ') plain fun blank => absurd blank (by decide)
      simpa [PrintedParameter.declaration, LabelledParameter.printed, labelled, stated] using
        word.append later (startsPlain_cons.mpr ⟨by decide, fun _ => apart⟩)

end Parameter

/-! ## One member -/

section Member

variable {dialect : Dialect} {member : LabelledMember}

theorem LabelledMember.list_written (member : LabelledMember) :
    member.written.list =
      listed ',' (member.parameters.map fun item => item.written.spelling) := by
  simp [LabelledMember.written, LabelledMember.text, MemberText.list, Function.comp_def]

/-- A labelled list declares what it declares without the labels. -/
theorem LabelledMember.Canonical.parameters (canonical : member.Canonical dialect) :
    Declaration.parameters member.written.list =
      .ok (member.plain.parameters.map ParameterText.declared) := by
  have written : ∀ item ∈ member.parameters, item.printed.Written IsBlanks fun _ => true :=
    fun item among => (canonical.spelled item among).printed _
  have declared : member.plain.parameters.map ParameterText.declared =
      member.parameters.map fun item => item.declared := List.map_map
  rw [member.list_written, declared]
  apply parameters_listed
  · exact fun item among => (canonical.spelled item among).nested
  · intro item among
    rw [item.spelling_written]
    exact (written item among).through (by decide) (by decide)
  · intro item among
    rw [item.spelling_written]
    exact (written item among).solid
  · intro item among
    rw [item.spelling_written, (written item among).parameter?_declaration, item.declared_printed]

theorem LabelledMember.Canonical.nested_list (canonical : member.Canonical dialect) :
    Nested true member.written.list := by
  rw [member.list_written]
  exact nested_listed (by decide) (List.forall_mem_map.mpr fun item among =>
    (canonical.spelled item among).nested)

theorem LabelledMember.Canonical.nested_tail (canonical : member.Canonical dialect)
    (layout : Layout) : Nested true (member.written.tail dialect layout) :=
  MemberText.nested_tail canonical.nested_list canonical.plain.result dialect layout

theorem LabelledMember.Canonical.loose_tail (canonical : member.Canonical dialect)
    (layout : Layout) : Source.Loose (member.written.tail dialect layout) := by
  have returns := (dialect.returns.nested_spelling layout canonical.plain.result).2.loose
  have closed := loose_cons (c := ')') returns nofun
  have list : Source.Loose member.written.list := by
    rw [member.list_written]
    exact loose_listed (List.forall_mem_map.mpr fun item among =>
      (canonical.spelled item among).loose)
  exact loose_cons (c := '(')
    (list.append closed (startsPlain_cons.mpr ⟨by decide, nofun⟩)) nofun

theorem Idle.barren {text after : List Char} {stop : Nat} {header : Header}
    (idle : Idle text stop after header) : Barren text stop header := by
  right
  rintro rfl dialect file
  exact idle.entity? dialect file

theorem LabelledMember.Canonical.presents (canonical : member.Canonical dialect)
    (regular : dialect.Regular) (layout : Layout) :
    Presents dialect (member.written.spelling dialect layout) fun marked =>
      (member.plain.callable? dialect marked).toList where
  level := @MemberText.level_spelling dialect member.written regular canonical.plain.modifiers
    canonical.plain.name layout (canonical.nested_tail layout)
  walk window := by
    obtain ⟨start, name, signature, walked⟩ := @Walk.headers_named dialect _ _ _ _ member.written
      regular canonical.plain.modifiers canonical.plain.name layout window
    -- a label may be a keyword or a modifier, so a walk may find headers in the list
    have tail := ahead_of_loose (canonical.nested_tail layout) (canonical.loose_tail layout)
      signature
    obtain ⟨found, next, beyond, idle, rest⟩ := Walk.headers_of_ahead tail [] [] false
    have read := Dialect.signature?_of_list regular.returns canonical.nested_list
      canonical.parameters canonical.plain.result layout signature
    refine ⟨member.written.header dialect start name :: found, next, beyond, ?_, ?_, ?_⟩
    · exact List.forall_mem_cons.mpr
        ⟨.inl regular.apart, fun header among => (idle header among).barren⟩
    · intro marked
      have own := callable?_of_signature regular canonical.plain start read marked
      have others := exposes_of_forall fun header among =>
        (idle header among).callable? dialect marked
      have whole := (Exposes.of_option rfl own).append others
      rwa [List.append_nil] at whole
    · rw [walked, Walk.start, rest, List.cons_append]

end Member

/-! ## Files -/

section Files

variable {dialect : Dialect}

theorem LabelledClass.Canonical.reads {entry : LabelledClass} (canonical : entry.Canonical dialect)
    (regular : dialect.Regular) (layout : Layout) :
    entry.written.Reads dialect layout entry.plain where
  name := canonical.plain.name
  exposable := canonical.plain.exposable
  sameName := rfl
  sameMark := rfl
  lines := by
    have members := presents_flatMap fun member among =>
      (canonical.members member among).presents regular layout
    simpa [LabelledClass.written, LabelledClass.plain, List.flatMap_map, List.filterMap_map,
      List.filterMap_eq_flatMap_toList] using members

/-- A file with labels is extracted to the entities that it declares without them. -/
theorem extract_labelled (known : dialect ∈ [Dialect.kotlin, Dialect.swift]) (layout : Layout)
    {classes : List LabelledClass} (canonical : ∀ entry ∈ classes, entry.Canonical dialect)
    (file : Option RawText) :
    extract dialect (written dialect layout (classes.map LabelledClass.written)) file =
      .found (classes.filterMap fun entry => entry.plain.entity? dialect) := by
  have regular := regular_of_known known
  have plain : ∀ entry ∈ classes.map LabelledClass.plain, entry.Canonical dialect :=
    List.forall_mem_map.mpr fun entry among => (canonical entry among).plain
  have whole := entities_written regular
    (fun entry among => (canonical entry among).reads regular layout) file
    (window_whole (written dialect layout (classes.map LabelledClass.written)))
  rw [settledAll_of_canonical plain, List.filterMap_map] at whole
  exact whole

end Files

/-! ## Names -/

/-- Each name is different from all others, or it is the wildcard. -/
def LabelledMember.Distinct (member : LabelledMember) : Prop :=
  ((member.parameters.map (·.name)).filter (· ≠ "_")).Nodup

instance (member : LabelledMember) : Decidable member.Distinct :=
  inferInstanceAs (Decidable (List.Nodup _))

/-- The names of the parameters, but for those of sinks. -/
def LabelledMember.names (member : LabelledMember) : List String :=
  (member.parameters.filter fun item => !item.type.isSink).map (·.name)

theorem nodup_iff_count_wildcard {α : Type} [DecidableEq α] {names : List α} {wildcard : α}
    (distinct : (names.filter (· ≠ wildcard)).Nodup) :
    names.Nodup ↔ names.count wildcard ≤ 1 := by
  constructor
  · exact fun unique => List.nodup_iff_count_le_one.mp unique wildcard
  · intro once
    refine List.nodup_iff_count_le_one.mpr fun name => ?_
    by_cases same : name = wildcard
    · rwa [same]
    · have kept : (names.filter (· ≠ wildcard)).count name = names.count name :=
        List.count_filter (decide_eq_true same)
      rw [← kept]
      exact List.nodup_iff_count_le_one.mp distinct name

section Names

variable {dialect : Dialect} {member : LabelledMember} {marked : Bool} {callable : Callable}

/-- A sink among the parameters is left out, and all others are kept under their names. -/
theorem LabelledMember.names_of_callable?
    (shown : member.plain.callable? dialect marked = some callable) :
    callable.parameters.map (·.name) = member.names := by
  have all (items : List LabelledParameter) :
      ((items.map LabelledParameter.toParameterText).map ParameterText.declared).map
          Parameter.name = items.map (·.name) := by
    simp [ParameterText.declared, Function.comp_def]
  have kept : (member.plain.parameters.filter fun parameter => !parameter.type.isSink) =
      (member.parameters.filter fun item => !item.type.isSink).map
        LabelledParameter.toParameterText := List.filter_map
  unfold MemberText.callable? at shown
  split at shown
  · cases shown
  · split at shown
    · cases shown
      rw [kept]
      exact all _
    · rename_i noSink
      split at shown
      · cases shown
        have whole : (member.parameters.filter fun item => !item.type.isSink) =
            member.parameters := by
          refine List.filter_eq_self.mpr fun item among => ?_
          simp only [not_exists, not_and, Bool.not_eq_true] at noSink
          rw [noSink _ (List.mem_map_of_mem among), Bool.not_false]
        rw [LabelledMember.names, whole]
        exact all _
      · cases shown

/-- The names of a callable are unique exactly if at most one of them is the wildcard. -/
theorem LabelledMember.Distinct.nodup_iff (distinct : member.Distinct)
    (shown : member.plain.callable? dialect marked = some callable) :
    (callable.parameters.map (·.name)).Nodup ↔ member.names.count "_" ≤ 1 := by
  have among : List.Sublist member.names (member.parameters.map (·.name)) :=
    List.filter_sublist.map _
  rw [LabelledMember.names_of_callable? shown]
  exact nodup_iff_count_wildcard (distinct.sublist (among.filter _))

end Names

theorem mem_entity?_of_mem {dialect : Dialect} {entry : ClassText} {member : MemberText}
    {callable : Callable} (among : member ∈ entry.members)
    (shown : member.callable? dialect entry.marked = some callable) :
    ∃ entity, entry.entity? dialect = some entity ∧ callable ∈ entity.callables := by
  have exposed : callable ∈ entry.callables dialect :=
    List.mem_filterMap.mpr ⟨member, among, shown⟩
  have some : (entry.callables dialect).isEmpty = false :=
    List.isEmpty_eq_false_iff.mpr (List.ne_nil_of_mem exposed)
  exact ⟨⟨entry.name, entry.callables dialect, dialect.origin⟩, by simp [ClassText.entity?, some],
    exposed⟩

/-- Each callable that a file declares has the names of its parameters without the labels. With
names that are distinct but for wildcards these are unique exactly if one wildcard at most is
among them. -/
theorem extract_labelled_nodup_iff (layout : Layout) {classes : List LabelledClass}
    (canonical : ∀ entry ∈ classes, entry.Canonical .swift) (file : Option RawText) :
    extract .swift (written .swift layout (classes.map LabelledClass.written)) file =
        .found (classes.filterMap fun entry => entry.plain.entity? .swift) ∧
      ∀ entry ∈ classes, ∀ member ∈ entry.members, member.Distinct →
        ∀ callable, member.plain.callable? .swift entry.marked = some callable →
          (∃ entity, entry.plain.entity? .swift = some entity ∧ callable ∈ entity.callables) ∧
          ((callable.parameters.map (·.name)).Nodup ↔ member.names.count "_" ≤ 1) := by
  refine ⟨extract_labelled (by simp) layout canonical file, ?_⟩
  intro entry _ member among distinct callable shown
  exact ⟨mem_entity?_of_mem (List.mem_map_of_mem among) shown, distinct.nodup_iff shown⟩

/-- A class whose callables have unique names, one of them with a wildcard. -/
def service : LabelledClass where
  marked := false
  name := "Service"
  members := [
    ⟨[.member], [], "process", [⟨⟨"value", .name "String"⟩, some "_"⟩,
      ⟨⟨"key", .name "String"⟩, some "for"⟩], some (.name "Bool")⟩,
    ⟨[], ["open"], "follow", [⟨⟨"_", .name "Int"⟩, none⟩, ⟨⟨"id", .name "Int"⟩, some "func"⟩,
      ⟨⟨"sink", .name "EventSink"⟩, some "to"⟩], none⟩]

theorem service_canonical : service.Canonical .swift where
  plain := by
    constructor
    · exact ⟨by decide, by decide⟩
    · decide
    · refine List.forall_mem_cons.mpr ⟨⟨by decide, ⟨by decide, by decide⟩, ?_, ?_⟩,
        List.forall_mem_singleton.mpr ⟨by decide, ⟨by decide, by decide⟩, ?_, nofun⟩⟩
      · exact List.forall_mem_cons.mpr ⟨.word (by decide) (by decide),
          List.forall_mem_singleton.mpr (.word (by decide) (by decide))⟩
      · rintro _ ⟨⟩
        exact .name (by decide)
      · exact List.forall_mem_cons.mpr ⟨.word (by decide) (by decide),
          List.forall_mem_cons.mpr ⟨.word (by decide) (by decide),
            List.forall_mem_singleton.mpr (.word (by decide) (by decide))⟩⟩
    · decide
  labels := by decide

theorem extract_service :
    (∀ entry ∈ [service], entry.Canonical .swift) ∧
      (∀ member ∈ service.members, member.Distinct) ∧
      extract .swift (written .swift ⟨2, 0, 1, 1⟩ [service.written]) none =
        .found [⟨"Service", [⟨.call, "process", "Bool", [⟨"value", "String"⟩, ⟨"key", "String"⟩]⟩,
          ⟨.subscription, "follow", "Void", [⟨"_", "Int"⟩, ⟨"id", "Int"⟩]⟩], .ios⟩] ∧
      ["value", "key"].Nodup ∧ ["_", "id"].Nodup := by
  have canonical : ∀ entry ∈ [service], entry.Canonical .swift :=
    List.forall_mem_singleton.mpr service_canonical
  have distinct : ∀ member ∈ service.members, member.Distinct := by decide
  obtain ⟨extracted, names⟩ := extract_labelled_nodup_iff ⟨2, 0, 1, 1⟩ canonical none
  obtain ⟨process, follow⟩ := List.forall_mem_cons.mp (names service List.mem_cons_self)
  have follow := List.forall_mem_singleton.mp follow
  refine ⟨canonical, distinct, extracted.trans (congrArg Extraction.found rfl), ?_, ?_⟩
  · exact (process (by decide) _ rfl).2.mpr (by decide)
  · exact (follow (by decide) _ rfl).2.mpr (by decide)

def lift : LabelledClass where
  marked := false
  name := "Lift"
  members := [⟨[.member], [], "move",
    [⟨⟨"_", .name "Int"⟩, some "from"⟩, ⟨⟨"_", .name "Int"⟩, some "to"⟩], none⟩]

theorem lift_canonical : lift.Canonical .swift where
  plain := by
    constructor
    · exact ⟨by decide, by decide⟩
    · decide
    · refine List.forall_mem_singleton.mpr ⟨by decide, ⟨by decide, by decide⟩, ?_, nofun⟩
      exact List.forall_mem_cons.mpr ⟨.word (by decide) (by decide),
        List.forall_mem_singleton.mpr (.word (by decide) (by decide))⟩
    · decide
  labels := by decide

/-- Wildcards are kept as names, so two parameters of one callable share theirs. -/
theorem extract_lift :
    lift.Canonical .swift ∧ (∀ member ∈ lift.members, member.Distinct) ∧
      written .swift ⟨2, 0, 1, 1⟩ [lift.written] =
        "class Lift \x7b\n  @objc func move(from _: Int, to _: Int) \x7b\x7d\n\x7d\n".toList ∧
      extract .swift (written .swift ⟨2, 0, 1, 1⟩ [lift.written]) none =
        .found [⟨"Lift", [⟨.call, "move", "Void", [⟨"_", "Int"⟩, ⟨"_", "Int"⟩]⟩], .ios⟩] ∧
      ¬ ["_", "_"].Nodup := by
  have canonical : ∀ entry ∈ [lift], entry.Canonical .swift :=
    List.forall_mem_singleton.mpr lift_canonical
  have extracted := extract_labelled (by simp) ⟨2, 0, 1, 1⟩ canonical none
  refine ⟨lift_canonical, by decide, by decide +kernel, ?_, by decide⟩
  exact extracted.trans (congrArg Extraction.found rfl)

end DartBindings.Declaration
