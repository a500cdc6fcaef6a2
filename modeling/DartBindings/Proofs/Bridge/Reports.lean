import DartBindings.Proofs.Bridge.Succession

/-!
What the conflicts of a merge say.

A definition that is not merged into its entity is reported as dropped, and a report is about two
definitions that are there. The definition that a report calls kept may give way later on, to
one more entity of the name; the last report on a member has the definition that is merged.
-/

set_option autoImplicit false

namespace DartBindings.Bridge

variable {first second : List Entity}

/-- An entity of that name defines a member of that name so. -/
def IsDefinition (entities : List Entity) (entity name : String) (callable : Callable) : Prop :=
  callable.name = name ∧ ∃ other ∈ entities, other.name = entity ∧ callable ∈ other.callables

theorem isDefinition_of_mem {entities : List Entity} {entity name : String} {callable : Callable}
    (member : callable ∈ definitions entity name entities) :
    IsDefinition entities entity name callable := by
  obtain ⟨other, among, defined⟩ := List.mem_filterMap.mp member
  unfold defined? at defined
  split at defined
  · rename_i same
    obtain ⟨inside, named⟩ := lastNamed?_some defined
    exact ⟨named, other, among, same, inside⟩
  · cases defined

theorem mem_definitions {entities : List Entity} {entity : Entity} {callable : Callable}
    (among : entity ∈ entities) (distinct : entity.callableNames.Nodup)
    (member : callable ∈ entity.callables) :
    callable ∈ definitions entity.name callable.name entities := by
  refine List.mem_filterMap.mpr ⟨entity, among, ?_⟩
  rw [defined?, if_pos rfl]
  exact lastNamed?_of_mem distinct member

/-- The conflicts are the changes of the definitions. -/
theorem mem_conflicts_iff {conflict : Conflict} :
    conflict ∈ (merge first second).2 ↔
      (conflict.dropped, conflict.kept) ∈
        changes (definitions conflict.entity conflict.callable (first ++ second)) := by
  have reports := (merge_succession conflict.entity conflict.callable first second).2
  have own : conflict ∈ (merge first second).2 ↔
      conflict ∈ conflictsOver conflict.entity conflict.callable (merge first second).2 := by
    simp [conflictsOver]
  rw [own, reports, List.mem_map]
  constructor
  · rintro ⟨change, among, same⟩
    rw [← same]
    exact among
  · intro among
    exact ⟨_, among, rfl⟩

/-- No definition is dropped silently: one that is not merged is reported as dropped. What is
reported are two different definitions of the member, each by an entity of the name. -/
theorem merge_reports_dropped (distinct : ∀ entity ∈ first ++ second, entity.callableNames.Nodup) :
    (∀ entity ∈ first ++ second, ∀ callable ∈ entity.callables,
      definition? entity.name callable.name (merge first second).1 ≠ some callable →
        ∃ conflict ∈ (merge first second).2, conflict.entity = entity.name ∧
          conflict.callable = callable.name ∧ conflict.dropped = callable) ∧
    ∀ conflict ∈ (merge first second).2, conflict.kept ≠ conflict.dropped ∧
      IsDefinition (first ++ second) conflict.entity conflict.callable conflict.kept ∧
      IsDefinition (first ++ second) conflict.entity conflict.callable conflict.dropped := by
  constructor
  · intro entity among callable member missing
    have defined := mem_definitions among (distinct entity among) member
    rw [(merge_succession entity.name callable.name first second).1] at missing
    obtain ⟨kept, changed⟩ := exists_change_of_mem defined missing
    exact ⟨⟨entity.name, callable.name, kept, callable⟩, mem_conflicts_iff.mpr changed, rfl, rfl,
      rfl⟩
  · intro conflict reported
    obtain ⟨dropped, kept, different⟩ := of_mem_changes (mem_conflicts_iff.mp reported)
    exact ⟨different.symm, isDefinition_of_mem kept, isDefinition_of_mem dropped⟩

/-- A class with one call, which returns this type. -/
def gauge (origin : Origin) (returnType : String) : Entity :=
  ⟨"Gauge", [⟨.call, "level", returnType, []⟩], origin⟩

/-- Two files of one platform that differ over the class. -/
def gauges : List Entity :=
  [gauge .android "Int", gauge .android "Long"]

theorem merge_gauges_reports_dropped :
    (∀ entity ∈ gauges ++ [gauge .ios "Int"], entity.callableNames.Nodup) ∧
    definition? "Gauge" "level" (merge gauges [gauge .ios "Int"]).1 =
      some ⟨.call, "level", "Int", []⟩ ∧
    ∃ conflict ∈ (merge gauges [gauge .ios "Int"]).2, conflict.entity = "Gauge" ∧
      conflict.callable = "level" ∧ conflict.dropped = ⟨.call, "level", "Long", []⟩ := by
  have distinct : ∀ entity ∈ gauges ++ [gauge .ios "Int"], entity.callableNames.Nodup := by decide
  refine ⟨distinct, by decide, ?_⟩
  exact (merge_reports_dropped distinct).1 (gauge .android "Long") (by decide)
    ⟨.call, "level", "Long", []⟩ (by decide) (by decide)

/-! ## What is kept -/

/-- The definition that a conflict calls kept is the one that is merged. -/
def Conflict.Stands (conflict : Conflict) (merged : List Entity) : Prop :=
  definition? conflict.entity conflict.callable merged = some conflict.kept

instance (conflict : Conflict) (merged : List Entity) : Decidable (conflict.Stands merged) :=
  inferInstanceAs (Decidable (_ = _))

/-- The member that a conflict is over. -/
def Conflict.member (conflict : Conflict) : String × String :=
  (conflict.entity, conflict.callable)

theorem conflictsOver_of_ne {conflict : Conflict} {conflicts : List Conflict}
    (others : ∀ other ∈ conflicts, other.member ≠ conflict.member) :
    conflictsOver conflict.entity conflict.callable conflicts = [] := by
  rw [conflictsOver, List.filter_eq_nil_iff]
  intro other among same
  simp only [Bool.and_eq_true, beq_iff_eq] at same
  exact others other among (Prod.ext same.1 same.2)

theorem length_conflictsOver (entity callable : String) (conflicts : List Conflict) :
    (conflictsOver entity callable conflicts).length =
      (conflicts.map Conflict.member).count (entity, callable) := by
  rw [conflictsOver, List.count, List.countP_map, List.countP_eq_length_filter]
  congr 2

/-- The last report on a member says what is merged. -/
theorem stands_of_last {before after : List Conflict} {conflict : Conflict}
    (found : (merge first second).2 = before ++ conflict :: after)
    (last : ∀ later ∈ after, later.member ≠ conflict.member) :
    conflict.Stands (merge first second).1 := by
  obtain ⟨final, reports⟩ := merge_succession conflict.entity conflict.callable first second
  have own : conflictsOver conflict.entity conflict.callable [conflict] = [conflict] := by
    simp [conflictsOver]
  rw [found, ← List.singleton_append, conflictsOver_append, conflictsOver_append, own,
    conflictsOver_of_ne last, List.append_nil] at reports
  have latest := congrArg List.getLast? reports
  rw [List.getLast?_concat, List.getLast?_map] at latest
  obtain ⟨change, here, same⟩ := Option.map_eq_some_iff.mp latest.symm
  rw [Conflict.Stands, final, getLast?_changes here, ← same]
  rfl

/-- All definitions that are reported as kept are merged just if no member is reported twice. Of
the reports on one member the last one can be relied on in any case. -/
theorem merge_kept_iff (first second : List Entity) :
    ((∀ conflict ∈ (merge first second).2, conflict.Stands (merge first second).1) ↔
      ((merge first second).2.map Conflict.member).Nodup) ∧
    ∀ before conflict after, (merge first second).2 = before ++ conflict :: after →
      (∀ later ∈ after, later.member ≠ conflict.member) →
        conflict.Stands (merge first second).1 := by
  refine ⟨?_, fun before conflict after => stands_of_last⟩
  rw [List.nodup_iff_count_le_one]
  constructor
  · rintro stands ⟨entity, callable⟩
    obtain ⟨final, reports⟩ := merge_succession entity callable first second
    rw [← length_conflictsOver, reports, List.length_map, length_changes_le_one_iff]
    intro change among
    have conflict : reported entity callable change ∈ (merge first second).2 :=
      mem_conflicts_iff.mpr among
    exact final.symm.trans (stands _ conflict)
  · intro single conflict among
    obtain ⟨final, reports⟩ := merge_succession conflict.entity conflict.callable first second
    have short := single conflict.member
    rw [Conflict.member, ← length_conflictsOver, reports, List.length_map,
      length_changes_le_one_iff] at short
    exact final.trans (short _ (mem_conflicts_iff.mp among))

/-- The class differs in three files. The first report calls the second definition kept, and the
third one is merged. -/
theorem merge_gauges_superseded :
    (∀ entity ∈ gauges ++ [gauge .ios "String"], entity.callableNames.Nodup) ∧
    (merge gauges [gauge .ios "String"]).1 = [gauge .unified "String"] ∧
    ⟨"Gauge", "level", ⟨.call, "level", "Long", []⟩, ⟨.call, "level", "Int", []⟩⟩ ∈
      (merge gauges [gauge .ios "String"]).2 ∧
    ¬ ∀ conflict ∈ (merge gauges [gauge .ios "String"]).2,
      conflict.Stands (merge gauges [gauge .ios "String"]).1 := by
  decide

theorem merge_gauges_kept :
    ((merge gauges [gauge .ios "Long"]).2.map Conflict.member).Nodup ∧
    (∀ conflict ∈ (merge gauges [gauge .ios "Long"]).2,
      conflict.Stands (merge gauges [gauge .ios "Long"]).1) ∧
    Conflict.Stands ⟨"Gauge", "level", ⟨.call, "level", "String", []⟩, ⟨.call, "level", "Long", []⟩⟩
      (merge gauges [gauge .ios "String"]).1 := by
  have single : ((merge gauges [gauge .ios "Long"]).2.map Conflict.member).Nodup := by decide
  refine ⟨single, (merge_kept_iff gauges [gauge .ios "Long"]).1.mpr single, ?_⟩
  exact (merge_kept_iff gauges [gauge .ios "String"]).2
    [⟨"Gauge", "level", ⟨.call, "level", "Long", []⟩, ⟨.call, "level", "Int", []⟩⟩] _ []
    (by decide) (by simp)

end DartBindings.Bridge
