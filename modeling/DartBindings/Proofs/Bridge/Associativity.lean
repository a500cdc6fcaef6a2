import DartBindings.Proofs.Bridge.Succession

/-!
Merging is associative. Where the entities of each list have different names, a merge is read off
the two lists at once: each entity of the first list is unified with the one of its name in the
second, and the others of the second list come after. Uniting three entities of one name is
associative in names, definitions and origin.
-/

set_option autoImplicit false

namespace DartBindings.Bridge

/-! ## Three entities of one name -/

theorem eraseDups_append_eraseDups (names later : List String) :
    (names ++ later.eraseDups).eraseDups = (names ++ later).eraseDups := by
  rw [List.eraseDups_append, List.eraseDups_append]
  unfold List.removeAll
  rw [eraseDups_filter, eraseDups_filter, eraseDups_of_nodup (nodup_eraseDups later)]

theorem unify_assoc (first second third : Entity) (early late origin : Origin) :
    (unify (unify first second early).1 third origin).1 =
      (unify first (unify second third late).1 origin).1 := by
  have names : unifiedNames (unify first second early).1.callables third.callables =
      unifiedNames first.callables (unify second third late).1.callables := by
    rw [unifiedNames_eq, unifiedNames_eq, ← Entity.callableNames, ← Entity.callableNames,
      ← Entity.callableNames, ← Entity.callableNames, callableNames_unify, callableNames_unify,
      eraseDups_eraseDups_append, eraseDups_append_eraseDups, List.append_assoc]
  have definitions : chosen? (unify first second early).1.callables third.callables =
      chosen? first.callables (unify second third late).1.callables := by
    funext name
    rw [chosen?, chosen?, lastNamed?_unify, lastNamed?_unify, Option.or_assoc]
  change Entity.mk first.name (List.filterMap _ _) origin =
    Entity.mk first.name (List.filterMap _ _) origin
  rw [names, definitions]

/-! ## Two lists -/

/-- The entity, unified with the newcomer of its name if there is one. -/
def joined (change : Origin → Origin) (newcomers : List Entity) (entity : Entity) : Entity :=
  match newcomers.find? fun newcomer => newcomer.name == entity.name with
  | some newcomer => (unify entity newcomer (change entity.origin)).1
  | none => entity

/-- The entities that have none of these names. -/
def without (names : List String) (entities : List Entity) : List Entity :=
  entities.filter fun entity => !names.contains entity.name

section Lists

variable (change : Origin → Origin) {newcomers : List Entity} {entity : Entity}

theorem joined_name (newcomers : List Entity) (entity : Entity) :
    (joined change newcomers entity).name = entity.name := by
  unfold joined
  split <;> rfl

theorem map_name_joined (newcomers entities : List Entity) :
    (entities.map (joined change newcomers)).map (·.name) = entities.map (·.name) := by
  rw [List.map_map]
  exact List.map_congr_left fun entity _ => joined_name change newcomers entity

theorem joined_of_not_mem (absent : entity.name ∉ newcomers.map (·.name)) :
    joined change newcomers entity = entity := by
  have none : (newcomers.find? fun newcomer => newcomer.name == entity.name) = none := by
    rw [List.find?_eq_none]
    intro newcomer among same
    exact absent (List.mem_map.mpr ⟨newcomer, among, by simpa using same⟩)
  rw [joined, none]

theorem map_joined_of_not_mem {entities : List Entity}
    (absent : ∀ entity ∈ entities, entity.name ∉ newcomers.map (·.name)) :
    entities.map (joined change newcomers) = entities := by
  calc entities.map (joined change newcomers)
      = entities.map id :=
        List.map_congr_left fun entity among => joined_of_not_mem change (absent entity among)
    _ = entities := List.map_id entities

theorem mem_without {names : List String} {entities : List Entity} :
    entity ∈ without names entities ↔ entity ∈ entities ∧ entity.name ∉ names := by
  simp [without]

theorem without_congr {names others : List String} {entities : List Entity}
    (same : ∀ entity ∈ entities, (entity.name ∈ names ↔ entity.name ∈ others)) :
    without names entities = without others entities := by
  apply List.filter_congr
  intro entity among
  simp [same entity among]

theorem without_append (names : List String) (first last : List Entity) :
    without names (first ++ last) = without names first ++ without names last :=
  List.filter_append first last

/-- A newcomer is unified with the entity of its name, or it comes after all of them. -/
theorem absorb_of_distinct (newcomer : Entity) {merged : List Entity}
    (distinct : (merged.map (·.name)).Nodup) :
    (absorb change newcomer merged).1 =
      merged.map (joined change [newcomer]) ++ without (merged.map (·.name)) [newcomer] := by
  induction merged with
  | nil => rfl
  | cons incumbent rest ih =>
      rw [List.map_cons, List.nodup_cons] at distinct
      rw [List.map_cons, List.map_cons]
      by_cases same : incumbent.name = newcomer.name
      · have others : rest.map (joined change [newcomer]) = rest := by
          apply map_joined_of_not_mem
          intro entity among equal
          rw [List.map_singleton, List.mem_singleton] at equal
          exact distinct.1 (List.mem_map.mpr ⟨entity, among, equal.trans same.symm⟩)
        have none : without (incumbent.name :: rest.map (·.name)) [newcomer] = [] := by
          simp [without, same]
        rw [absorb_same change same, others, none, List.append_nil]
        simp [joined, same]
      · have kept : joined change [newcomer] incumbent = incumbent := by
          apply joined_of_not_mem
          simpa using same
        have names : without (rest.map (·.name)) [newcomer] =
            without (incumbent.name :: rest.map (·.name)) [newcomer] := by
          apply without_congr
          intro entity among
          rw [List.mem_singleton.mp among, List.mem_cons, or_iff_right fun equal => same equal.symm]
        rw [absorb_other change same, ih distinct.2, kept, names]
        rfl

theorem joined_joined_single {newcomer : Entity}
    (fresh : newcomer.name ∉ newcomers.map (·.name)) (entity : Entity) :
    joined change newcomers (joined change [newcomer] entity) =
      joined change (newcomer :: newcomers) entity := by
  by_cases same : newcomer.name = entity.name
  · have absent : (joined change [newcomer] entity).name ∉ newcomers.map (·.name) := by
      rwa [joined_name, ← same]
    rw [joined_of_not_mem change absent]
    simp [joined, same]
  · have kept : joined change [newcomer] entity = entity := by
      apply joined_of_not_mem
      simpa using fun equal => same equal.symm
    rw [kept]
    simp [joined, same]

/-- The run: each entity is unified with the newcomer of its name, and the others come after. -/
theorem absorbAll_of_distinct {merged rest : List Entity} (distinct : (merged.map (·.name)).Nodup)
    (new : (rest.map (·.name)).Nodup) :
    (absorbAll change merged rest).1 =
      merged.map (joined change rest) ++ without (merged.map (·.name)) rest := by
  induction rest generalizing merged with
  | nil =>
      have same : merged.map (joined change []) = merged :=
        map_joined_of_not_mem change fun _ _ => List.not_mem_nil
      rw [same]
      exact (List.append_nil merged).symm
  | cons newcomer rest ih =>
      rw [List.map_cons, List.nodup_cons] at new
      have step := absorb_of_distinct change newcomer distinct
      have next := nodup_map_name_absorb change newcomer distinct
      have names : without ((absorb change newcomer merged).1.map (·.name)) rest =
          without (merged.map (·.name)) rest := by
        apply without_congr
        intro entity among
        have different : entity.name ≠ newcomer.name := fun equal =>
          new.1 (List.mem_map.mpr ⟨entity, among, equal⟩)
        rw [map_name_absorb]
        split
        · rfl
        · simp [different]
      have later : (without (merged.map (·.name)) [newcomer]).map (joined change rest) =
          without (merged.map (·.name)) [newcomer] := by
        apply map_joined_of_not_mem
        intro entity among
        rw [List.mem_singleton.mp (mem_without.mp among).1]
        exact new.1
      have both : joined change rest ∘ joined change [newcomer] =
          joined change (newcomer :: rest) :=
        funext (joined_joined_single change new.1)
      have run := ih next new.2
      rw [names, step, List.map_append, later, List.map_map, both, List.append_assoc,
        ← without_append, ← step] at run
      exact run

end Lists

/-- A merge of two lists in each of which no name occurs twice. -/
theorem merge_of_distinct {first second : List Entity} (ofFirst : (first.map (·.name)).Nodup)
    (ofSecond : (second.map (·.name)).Nodup) :
    (merge first second).1 =
      first.map (joined (fun _ => .unified) second) ++ without (first.map (·.name)) second := by
  have start : (absorbAll id [] first).1 = first := by
    have none : (List.map (·.name) ([] : List Entity)).Nodup := List.nodup_nil
    rw [absorbAll_of_distinct id none ofFirst]
    exact List.filter_eq_self.mpr fun _ _ => rfl
  change (absorbAll _ (absorbAll id [] first).1 second).1 = _
  rw [start]
  exact absorbAll_of_distinct _ ofFirst ofSecond

/-! ## Three lists -/

theorem nodup_map_name_merge {first second : List Entity} (ofFirst : (first.map (·.name)).Nodup)
    (ofSecond : (second.map (·.name)).Nodup) : ((merge first second).1.map (·.name)).Nodup := by
  rw [merge_of_distinct ofFirst ofSecond, List.map_append, map_name_joined, List.nodup_append]
  refine ⟨ofFirst, ofSecond.sublist (List.filter_sublist.map _), ?_⟩
  rintro name present other added rfl
  obtain ⟨entity, among, same⟩ := List.mem_map.mp added
  exact (mem_without.mp among).2 (same ▸ present)

theorem find?_without {names : List String} {name : String} (absent : name ∉ names)
    (entities : List Entity) :
    ((without names entities).find? fun entity => entity.name == name) =
      entities.find? fun entity => entity.name == name := by
  rw [without, List.find?_filter]
  congr 1
  funext entity
  by_cases same : entity.name = name
  · simp [same, absent]
  · simp [same]

/-- An entity is joined by what the two other lists are merged to as by one after the other. -/
theorem joined_merge {second third : List Entity} (ofSecond : (second.map (·.name)).Nodup)
    (ofThird : (third.map (·.name)).Nodup) (entity : Entity) :
    joined (fun _ => .unified) (merge second third).1 entity =
      joined (fun _ => .unified) third (joined (fun _ => .unified) second entity) := by
  have found : ((merge second third).1.find? fun other => other.name == entity.name) =
      ((second.find? fun other => other.name == entity.name).map
        (joined (fun _ => .unified) third)).or
          ((without (second.map (·.name)) third).find? fun other => other.name == entity.name) := by
    have same : (fun other : Entity => other.name == entity.name) ∘
        joined (fun _ => .unified) third = fun other => other.name == entity.name := by
      funext other
      rw [Function.comp, joined_name]
    rw [merge_of_distinct ofSecond ofThird, List.find?_append, List.find?_map, same]
  cases present : second.find? fun other => other.name == entity.name with
  | none =>
      have absent : entity.name ∉ second.map (·.name) := by
        intro member
        obtain ⟨other, among, same⟩ := List.mem_map.mp member
        have different := List.find?_eq_none.mp present other among
        exact different (by simpa using same)
      rw [present, Option.map_none, Option.none_or, find?_without absent] at found
      rw [joined_of_not_mem _ absent, joined, joined, found]
  | some other =>
      have named : other.name = entity.name := by simpa using List.find?_some present
      have first : joined (fun _ => .unified) second entity = (unify entity other .unified).1 := by
        rw [joined, present]
      rw [present, Option.map_some, Option.some_or] at found
      rw [first, joined, found]
      unfold joined
      change _ = match third.find? fun newcomer => newcomer.name == entity.name with
        | some newcomer => _
        | none => _
      rw [named]
      cases third.find? fun newcomer => newcomer.name == entity.name with
      | none => rfl
      | some last => exact (unify_assoc entity other last .unified .unified .unified).symm

theorem without_map_joined (change : Origin → Origin) (names : List String)
    (newcomers entities : List Entity) :
    without names (entities.map (joined change newcomers)) =
      (without names entities).map (joined change newcomers) := by
  rw [without, List.filter_map]
  congr 1
  apply List.filter_congr
  intro entity _
  rw [Function.comp, joined_name]

theorem without_without (names : List String) (second third : List Entity) :
    without (names ++ (without names second).map (·.name)) third =
      without names (without (second.map (·.name)) third) := by
  change List.filter _ third = List.filter _ (List.filter _ third)
  rw [List.filter_filter]
  apply List.filter_congr
  intro entity _
  have remaining : entity.name ∈ (without names second).map (·.name) ↔
      entity.name ∈ second.map (·.name) ∧ entity.name ∉ names := by
    constructor
    · intro member
      obtain ⟨other, among, same⟩ := List.mem_map.mp member
      obtain ⟨inside, outside⟩ := mem_without.mp among
      exact ⟨List.mem_map.mpr ⟨other, inside, same⟩, same ▸ outside⟩
    · rintro ⟨member, outside⟩
      obtain ⟨other, among, same⟩ := List.mem_map.mp member
      exact List.mem_map.mpr ⟨other, mem_without.mpr ⟨among, same ▸ outside⟩, same⟩
  rw [Bool.eq_iff_iff]
  simp only [Bool.not_eq_true', Bool.and_eq_true, List.contains_eq_mem, decide_eq_false_iff_not,
    List.mem_append, not_or, remaining]
  tauto

/-- Merging is associative, in the order of the entities, in their members, definitions and
origins. No name may occur twice in one of the lists. Nothing is asked of the members. -/
theorem merge_assoc {first second third : List Entity} (ofFirst : (first.map (·.name)).Nodup)
    (ofSecond : (second.map (·.name)).Nodup) (ofThird : (third.map (·.name)).Nodup) :
    (merge (merge first second).1 third).1 = (merge first (merge second third).1).1 := by
  let join : List Entity → Entity → Entity := joined fun _ => .unified
  have inner : (merge first second).1 =
      first.map (join second) ++ without (first.map (·.name)) second :=
    merge_of_distinct ofFirst ofSecond
  have names : (merge first second).1.map (·.name) =
      first.map (·.name) ++ (without (first.map (·.name)) second).map (·.name) := by
    rw [inner, List.map_append, map_name_joined]
  have joins : join third ∘ join second = join (merge second third).1 :=
    funext fun entity => (joined_merge ofSecond ofThird entity).symm
  calc (merge (merge first second).1 third).1
      = (merge first second).1.map (join third) ++
          without ((merge first second).1.map (·.name)) third :=
        merge_of_distinct (nodup_map_name_merge ofFirst ofSecond) ofThird
    _ = first.map (join (merge second third).1) ++
          ((without (first.map (·.name)) second).map (join third) ++
            without (first.map (·.name)) (without (second.map (·.name)) third)) := by
        rw [names, without_without, inner, List.map_append, List.map_map, joins, List.append_assoc]
    _ = first.map (join (merge second third).1) ++
          without (first.map (·.name)) (merge second third).1 := by
        rw [merge_of_distinct ofSecond ofThird, without_append, without_map_joined]
    _ = (merge first (merge second third).1).1 :=
        (merge_of_distinct ofFirst (nodup_map_name_merge ofSecond ofThird)).symm

/-- A class with one stream. -/
def beacon (origin : Origin) (name : String) : Entity :=
  ⟨"Beacon", [⟨.subscription, name, "Int", []⟩], origin⟩

theorem merge_assoc_beacons :
    (([clock .android ["now"], beacon .android "near"].map (·.name)).Nodup ∧
      ([beacon .ios "far"].map (·.name)).Nodup ∧
      ([clock .unified ["tick", "now"]].map (·.name)).Nodup) ∧
    (merge (merge [clock .android ["now"], beacon .android "near"] [beacon .ios "far"]).1
        [clock .unified ["tick", "now"]]).1 =
      (merge [clock .android ["now"], beacon .android "near"]
        (merge [beacon .ios "far"] [clock .unified ["tick", "now"]]).1).1 :=
  ⟨by decide, merge_assoc (by decide) (by decide) (by decide)⟩

end DartBindings.Bridge
