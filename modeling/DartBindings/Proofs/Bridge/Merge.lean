import DartBindings.Bridge.Merge
import Mathlib.Data.List.Nodup

/-!
What a merge makes of the entities of one name.

The merge is described from the two lists alone: which entities come out and in which order, and
for each of them the names, the definitions and the origin. The description is an invariant of
the entities merged so far, and one absorbed entity carries it a step further.
-/

set_option autoImplicit false

namespace DartBindings.Bridge

/-! ## Distinct names -/

theorem eraseDups_filter (keep : String → Bool) (names : List String) :
    (names.filter keep).eraseDups = names.eraseDups.filter keep := by
  induction size : names.length using Nat.strongRecOn generalizing names with
  | ind bound ih =>
      cases names with
      | nil => rfl
      | cons name names =>
          have shorter : (names.filter fun other => !other == name).length < bound := by
            have := List.length_filter_le (fun other => !other == name) names
            rw [← size, List.length_cons]
            omega
          have recursive := ih _ shorter _ rfl
          rw [List.eraseDups_cons]
          cases kept : keep name with
          | true =>
              rw [List.filter_cons_of_pos kept, List.filter_cons_of_pos kept, List.eraseDups_cons,
                ← recursive, List.filter_comm]
          | false =>
              rw [List.filter_cons_of_neg (by simp [kept]),
                List.filter_cons_of_neg (by simp [kept]), ← recursive, List.filter_filter]
              congr 1
              apply List.filter_congr
              intro other _
              by_cases same : other = name <;> simp [same, kept]

theorem distinctNames_eq_eraseDups (names : List String) :
    distinctNames names = names.eraseDups := by
  induction names with
  | nil => rfl
  | cons name names ih =>
      rw [distinctNames, List.eraseDups_cons, ih, ← eraseDups_filter]
      rfl

theorem nodup_eraseDups (names : List String) : names.eraseDups.Nodup := by
  rw [← distinctNames_eq_eraseDups]
  induction names with
  | nil => exact List.nodup_nil
  | cons name names ih =>
      rw [distinctNames, List.nodup_cons]
      exact ⟨by simp, ih.filter _⟩

theorem eraseDups_of_nodup {names : List String} (distinct : names.Nodup) :
    names.eraseDups = names := by
  induction names with
  | nil => rfl
  | cons name names ih =>
      obtain ⟨fresh, rest⟩ := List.nodup_cons.mp distinct
      have unchanged : (names.filter fun other => !other == name) = names := by
        rw [List.filter_eq_self]
        intro other member
        have different : other ≠ name := fun same => fresh (same ▸ member)
        simpa using different
      rw [List.eraseDups_cons, unchanged, ih rest]

theorem eraseDups_eraseDups_append (names later : List String) :
    (names.eraseDups ++ later).eraseDups = (names ++ later).eraseDups := by
  have removed : later.removeAll names.eraseDups = later.removeAll names := by
    unfold List.removeAll
    apply List.filter_congr
    intro name _
    simp only [List.elem_eq_contains, Bool.not_inj_iff]
    rw [Bool.eq_iff_iff]
    simp only [List.contains_iff_mem, List.mem_eraseDups]
  rw [List.eraseDups_append, List.eraseDups_append, eraseDups_of_nodup (nodup_eraseDups names),
    removed]

theorem eraseDups_concat (names : List String) (name : String) :
    (names ++ [name]).eraseDups =
      if name ∈ names then names.eraseDups else names.eraseDups ++ [name] := by
  rw [List.eraseDups_append]
  by_cases member : name ∈ names <;> simp [List.removeAll, List.eraseDups_cons, member]

/-! ## Two entities of one name -/

theorem lastNamed?_eq_none_iff {name : String} {callables : List Callable} :
    lastNamed? name callables = none ↔ name ∉ callables.map (·.name) := by
  simp [lastNamed?]

theorem lastNamed?_some {name : String} {callables : List Callable} {callable : Callable}
    (found : lastNamed? name callables = some callable) :
    callable ∈ callables ∧ callable.name = name := by
  unfold lastNamed? at found
  have member := List.mem_of_find?_eq_some found
  have same := List.find?_some found
  exact ⟨List.mem_reverse.mp member, by simpa using same⟩

theorem chosen?_some {incumbent newcomer : List Callable} {name : String} {callable : Callable}
    (chosen : chosen? incumbent newcomer name = some callable) :
    callable.name = name ∧
      (callable ∈ newcomer ∨ callable ∈ incumbent ∧ name ∉ newcomer.map (·.name)) := by
  unfold chosen? at chosen
  cases found : lastNamed? name newcomer with
  | some own =>
      rw [found, Option.some_or, Option.some.injEq] at chosen
      subst own
      obtain ⟨member, same⟩ := lastNamed?_some found
      exact ⟨same, .inl member⟩
  | none =>
      rw [found, Option.none_or] at chosen
      obtain ⟨member, same⟩ := lastNamed?_some chosen
      exact ⟨same, .inr ⟨member, lastNamed?_eq_none_iff.mp found⟩⟩

theorem chosen?_eq_none_iff {incumbent newcomer : List Callable} {name : String} :
    chosen? incumbent newcomer name = none ↔ name ∉ (incumbent ++ newcomer).map (·.name) := by
  unfold chosen?
  rw [Option.or_eq_none_iff, lastNamed?_eq_none_iff, lastNamed?_eq_none_iff, List.map_append,
    List.mem_append, not_or, and_comm]

theorem unifiedNames_eq (incumbent newcomer : List Callable) :
    unifiedNames incumbent newcomer =
      (incumbent.map (·.name) ++ newcomer.map (·.name)).eraseDups := by
  rw [unifiedNames, distinctNames_eq_eraseDups, List.map_append]

theorem map_name_filterMap_chosen? (incumbent newcomer : List Callable) (names : List String)
    (covered : ∀ name ∈ names, name ∈ (incumbent ++ newcomer).map (·.name)) :
    (names.filterMap (chosen? incumbent newcomer)).map (·.name) = names := by
  induction names with
  | nil => rfl
  | cons name names ih =>
      have rest := ih fun other member => covered other (List.mem_cons_of_mem _ member)
      cases chosen : chosen? incumbent newcomer name with
      | none => exact absurd (covered name List.mem_cons_self) (chosen?_eq_none_iff.mp chosen)
      | some callable =>
          rw [List.filterMap_cons_some chosen, List.map_cons, rest, (chosen?_some chosen).1]

theorem callableNames_unify (incumbent newcomer : Entity) (origin : Origin) :
    (unify incumbent newcomer origin).1.callableNames =
      (incumbent.callableNames ++ newcomer.callableNames).eraseDups := by
  have names := unifiedNames_eq incumbent.callables newcomer.callables
  rw [← Entity.callableNames, ← Entity.callableNames] at names
  rw [← names]
  apply map_name_filterMap_chosen?
  intro name member
  rw [names, List.mem_eraseDups] at member
  rwa [List.map_append]

theorem mem_callables_unify {incumbent newcomer : Entity} {origin : Origin} {callable : Callable}
    (member : callable ∈ (unify incumbent newcomer origin).1.callables) :
    callable ∈ newcomer.callables ∨
      callable ∈ incumbent.callables ∧ callable.name ∉ newcomer.callableNames := by
  obtain ⟨name, _, chosen⟩ := List.mem_filterMap.mp member
  obtain ⟨rfl, choice⟩ := chosen?_some chosen
  exact choice

/-! ## The entities of one name -/

/-- The entities of that name, in order. -/
def named (name : String) (entities : List Entity) : List Entity :=
  entities.filter fun entity => entity.name == name

/-- The definition is that of the last entity that defines its name. -/
def Prevails (entities : List Entity) (callable : Callable) : Prop :=
  ∃ earlier entity later, entities = earlier ++ entity :: later ∧ callable ∈ entity.callables ∧
    ∀ other ∈ later, callable.name ∉ other.callableNames

/-- What the entities of one name become, `all` being merged and `second` those of them that are
of the second list: their names once each in the order of first occurrence, with the definitions
that prevail, and unified if one of several is of the second list. -/
structure Unites (all second : List Entity) (entity : Entity) : Prop where
  names : entity.callableNames =
    ((named entity.name all).flatMap Entity.callableNames).eraseDups
  definitions : ∀ callable ∈ entity.callables, Prevails (named entity.name all) callable
  origin : some entity.origin =
    if entity.name ∈ second.map (·.name) ∧ 2 ≤ (named entity.name all).length then some .unified
    else (named entity.name all).head?.map (·.origin)

/-- The entities that all of these are merged to, one for each name. -/
structure IsMerge (all second merged : List Entity) : Prop where
  names : merged.map (·.name) = (all.map (·.name)).eraseDups
  united : ∀ entity ∈ merged, Unites all second entity

theorem named_concat_self (all : List Entity) (entity : Entity) :
    named entity.name (all ++ [entity]) = named entity.name all ++ [entity] := by
  simp [named]

theorem named_concat_of_ne {name : String} {entity : Entity} (all : List Entity)
    (different : entity.name ≠ name) : named name (all ++ [entity]) = named name all := by
  simp [named, different]

theorem named_eq_nil_iff {name : String} {all : List Entity} :
    named name all = [] ↔ name ∉ all.map (·.name) := by
  simp [named, List.filter_eq_nil_iff]

theorem Prevails.of_last (earlier : List Entity) {entity : Entity} {callable : Callable}
    (member : callable ∈ entity.callables) : Prevails (earlier ++ [entity]) callable :=
  ⟨earlier, entity, [], rfl, member, by simp⟩

theorem Prevails.concat {entities : List Entity} {entity : Entity} {callable : Callable}
    (prevails : Prevails entities callable) (silent : callable.name ∉ entity.callableNames) :
    Prevails (entities ++ [entity]) callable := by
  obtain ⟨earlier, definer, later, rfl, member, unchanged⟩ := prevails
  refine ⟨earlier, definer, later ++ [entity], by simp, member, ?_⟩
  intro other present
  rcases List.mem_append.mp present with before | last
  · exact unchanged other before
  · rwa [List.mem_singleton.mp last]

/-! ## One entity more -/

theorem map_name_absorb (change : Origin → Origin) (newcomer : Entity) (merged : List Entity) :
    (absorb change newcomer merged).1.map (·.name) =
      if newcomer.name ∈ merged.map (·.name) then merged.map (·.name)
      else merged.map (·.name) ++ [newcomer.name] := by
  induction merged with
  | nil => rfl
  | cons incumbent rest ih =>
      by_cases same : incumbent.name = newcomer.name
      · simp [absorb, same, unify]
      · have different : newcomer.name ≠ incumbent.name := fun equal => same equal.symm
        simp only [absorb, same, ↓reduceIte, List.map_cons, ih, List.mem_cons, different, false_or]
        split <;> rfl

theorem nodup_map_name_absorb (change : Origin → Origin) (newcomer : Entity) {merged : List Entity}
    (distinct : (merged.map (·.name)).Nodup) :
    ((absorb change newcomer merged).1.map (·.name)).Nodup := by
  rw [map_name_absorb]
  split
  · exact distinct
  · rename_i fresh
    rw [List.nodup_append]
    refine ⟨distinct, List.nodup_singleton _, ?_⟩
    intro name present other added same
    rw [List.mem_singleton] at added
    exact fresh (added ▸ same ▸ present)

/-- After an entity is absorbed there are the others, and there is what it became: itself, or
its union with the one of its name. -/
theorem mem_absorb {change : Origin → Origin} {newcomer entity : Entity} {merged : List Entity}
    (unique : (merged.map (·.name)).Nodup) (member : entity ∈ (absorb change newcomer merged).1) :
    (entity ∈ merged ∧ entity.name ≠ newcomer.name) ∨
      (entity = newcomer ∧ newcomer.name ∉ merged.map (·.name)) ∨
      ∃ incumbent ∈ merged, incumbent.name = newcomer.name ∧
        entity = (unify incumbent newcomer (change incumbent.origin)).1 := by
  induction merged with
  | nil => exact .inr (.inl ⟨List.mem_singleton.mp member, List.not_mem_nil⟩)
  | cons incumbent rest ih =>
      rw [List.map_cons, List.nodup_cons] at unique
      by_cases same : incumbent.name = newcomer.name
      · simp only [absorb, same, ↓reduceIte, List.mem_cons] at member
        rcases member with union | kept
        · exact .inr (.inr ⟨incumbent, List.mem_cons_self, same, union⟩)
        · refine .inl ⟨List.mem_cons_of_mem _ kept, fun equal => unique.1 ?_⟩
          exact List.mem_map.mpr ⟨entity, kept, equal.trans same.symm⟩
      · simp only [absorb, same, ↓reduceIte, List.mem_cons] at member
        rcases member with rfl | later
        · exact .inl ⟨List.mem_cons_self, same⟩
        · rcases ih unique.2 later with ⟨kept, different⟩ | ⟨new, fresh⟩ | ⟨other, present, union⟩
          · exact .inl ⟨List.mem_cons_of_mem _ kept, different⟩
          · refine .inr (.inl ⟨new, ?_⟩)
            rw [List.map_cons, List.mem_cons, not_or]
            exact ⟨fun equal => same equal.symm, fresh⟩
          · exact .inr (.inr ⟨other, List.mem_cons_of_mem _ present, union⟩)

theorem Unites.of_fresh {all : List Entity} (second : List Entity) {newcomer : Entity}
    (fresh : newcomer.name ∉ all.map (·.name)) (distinct : newcomer.callableNames.Nodup) :
    Unites (all ++ [newcomer]) second newcomer := by
  have alone : named newcomer.name (all ++ [newcomer]) = [newcomer] := by
    rw [named_concat_self, named_eq_nil_iff.mpr fresh, List.nil_append]
  constructor
  · rw [alone, List.flatMap_singleton, eraseDups_of_nodup distinct]
  · intro callable member
    rw [alone]
    exact Prevails.of_last [] member
  · simp [alone]

theorem Unites.concat_other {all second secondAfter : List Entity} {entity newcomer : Entity}
    (united : Unites all second entity) (different : entity.name ≠ newcomer.name)
    (others : ∀ name, name ≠ newcomer.name →
      (name ∈ secondAfter.map (·.name) ↔ name ∈ second.map (·.name))) :
    Unites (all ++ [newcomer]) secondAfter entity := by
  have unchanged := named_concat_of_ne all different.symm
  constructor
  · rw [unchanged, united.names]
  · rw [unchanged]
    exact united.definitions
  · rw [unchanged, united.origin]
    simp only [others entity.name different]

theorem Unites.concat_union {all second secondAfter : List Entity} {incumbent newcomer : Entity}
    {origin : Origin} (united : Unites all second incumbent)
    (same : incumbent.name = newcomer.name)
    (rule : some origin =
      if newcomer.name ∈ secondAfter.map (·.name) then some .unified
      else (named newcomer.name all).head?.map (·.origin))
    (present : newcomer.name ∈ all.map (·.name)) :
    Unites (all ++ [newcomer]) secondAfter (unify incumbent newcomer origin).1 := by
  have name : (unify incumbent newcomer origin).1.name = newcomer.name := same
  obtain ⟨first, earlier, split⟩ : ∃ first earlier, named newcomer.name all = first :: earlier :=
    List.exists_cons_of_ne_nil fun none => named_eq_nil_iff.mp none present
  constructor
  · rw [name, callableNames_unify, united.names, same, eraseDups_eraseDups_append,
      named_concat_self, List.flatMap_append, List.flatMap_singleton]
  · intro callable member
    rw [name, named_concat_self]
    rcases mem_callables_unify member with own | ⟨kept, silent⟩
    · exact Prevails.of_last _ own
    · rw [← same]
      exact (united.definitions callable kept).concat silent
  · rw [name, named_concat_self]
    change some origin = _
    rw [rule, split]
    simp

/-- One entity is absorbed. What is asked of `change` concerns the entity that it joins. -/
theorem IsMerge.absorb {all second secondAfter merged : List Entity} {newcomer : Entity}
    {change : Origin → Origin} (state : IsMerge all second merged)
    (distinct : newcomer.callableNames.Nodup)
    (rule : ∀ incumbent ∈ merged, incumbent.name = newcomer.name →
      some (change incumbent.origin) =
        if newcomer.name ∈ secondAfter.map (·.name) then some .unified
        else (named newcomer.name all).head?.map (·.origin))
    (others : ∀ name, name ≠ newcomer.name →
      (name ∈ secondAfter.map (·.name) ↔ name ∈ second.map (·.name))) :
    IsMerge (all ++ [newcomer]) secondAfter (absorb change newcomer merged).1 := by
  have known : newcomer.name ∈ merged.map (·.name) ↔ newcomer.name ∈ all.map (·.name) := by
    rw [state.names, List.mem_eraseDups]
  have unique : (merged.map (·.name)).Nodup := by
    rw [state.names]
    exact nodup_eraseDups _
  constructor
  · rw [map_name_absorb, List.map_append, List.map_singleton, eraseDups_concat, state.names]
    simp only [List.mem_eraseDups]
  · intro entity member
    rcases mem_absorb unique member with ⟨kept, different⟩ | ⟨rfl, fresh⟩ |
      ⟨incumbent, kept, same, rfl⟩
    · exact (state.united entity kept).concat_other different others
    · exact Unites.of_fresh secondAfter (mt known.mpr fresh) distinct
    · have present := known.mp (List.mem_map.mpr ⟨incumbent, kept, same⟩)
      exact (state.united incumbent kept).concat_union same (rule incumbent kept same) present

theorem IsMerge.absorb_first {all merged : List Entity} {newcomer : Entity}
    (state : IsMerge all [] merged) (distinct : newcomer.callableNames.Nodup) :
    IsMerge (all ++ [newcomer]) [] (Bridge.absorb id newcomer merged).1 := by
  refine state.absorb distinct ?_ (fun _ _ => Iff.rfl)
  intro incumbent kept same
  have origin := (state.united incumbent kept).origin
  simpa [same] using origin

theorem IsMerge.absorb_second {all second merged : List Entity} {newcomer : Entity}
    (state : IsMerge all second merged) (distinct : newcomer.callableNames.Nodup) :
    IsMerge (all ++ [newcomer]) (second ++ [newcomer])
      (Bridge.absorb (fun _ => .unified) newcomer merged).1 := by
  refine state.absorb distinct ?_ ?_
  · intro incumbent _ _
    simp
  · intro name different
    simp [different]

/-! ## All entities -/

theorem absorbAll_preserves {change : Origin → Origin} (holds : List Entity → List Entity → Prop)
    (step : ∀ {seen merged newcomer}, newcomer.callableNames.Nodup → holds seen merged →
      holds (seen ++ [newcomer]) (absorb change newcomer merged).1)
    {seen merged rest : List Entity} (state : holds seen merged)
    (distinct : ∀ entity ∈ rest, entity.callableNames.Nodup) :
    holds (seen ++ rest) (absorbAll change merged rest).1 := by
  induction rest generalizing seen merged with
  | nil => simpa [absorbAll] using state
  | cons newcomer rest ih =>
      have next := step (distinct newcomer List.mem_cons_self) state
      have run := ih next fun entity member => distinct entity (List.mem_cons_of_mem _ member)
      simpa only [absorbAll, List.append_assoc, List.singleton_append] using run

theorem isMerge_nil : IsMerge [] [] [] := ⟨rfl, by simp⟩

/-- Lists of entities merge to one entity for each name, in the order of first occurrence, which
unites all entities of that name. Neither its name nor a name in it occurs twice. -/
theorem merge_isMerge {first second : List Entity}
    (distinct : ∀ entity ∈ first ++ second, entity.callableNames.Nodup) :
    IsMerge (first ++ second) second (merge first second).1 ∧
      ((merge first second).1.map (·.name)).Nodup ∧
      ∀ entity ∈ (merge first second).1, entity.callableNames.Nodup := by
  have ofFirst : IsMerge first [] (absorbAll id [] first).1 :=
    absorbAll_preserves (fun seen merged => IsMerge seen [] merged)
      (fun distinct state => state.absorb_first distinct) isMerge_nil
      fun entity member => distinct entity (List.mem_append_left _ member)
  -- the second list starts from what the first has become
  have start : IsMerge (first ++ []) [] (absorbAll id [] first).1 := by
    rwa [List.append_nil]
  have ofBoth : IsMerge (first ++ second) second (merge first second).1 := by
    refine absorbAll_preserves (fun seen merged => IsMerge (first ++ seen) seen merged) ?_ start ?_
    · intro seen merged newcomer distinct state
      rw [← List.append_assoc]
      exact state.absorb_second distinct
    · exact fun entity member => distinct entity (List.mem_append_right _ member)
  refine ⟨ofBoth, ?_, ?_⟩
  · rw [ofBoth.names]
    exact nodup_eraseDups _
  · intro entity member
    rw [(ofBoth.united entity member).names]
    exact nodup_eraseDups _

/-- A clock with these calls. -/
def clock (origin : Origin) (names : List String) : Entity :=
  ⟨"Clock", names.map fun name => ⟨.call, name, "Unit", []⟩, origin⟩

theorem merge_clocks_isMerge :
    (∀ entity ∈ [clock .android ["now"], clock .android ["zone"]] ++ [clock .ios ["tick", "now"]],
      entity.callableNames.Nodup) ∧
    IsMerge ([clock .android ["now"], clock .android ["zone"]] ++ [clock .ios ["tick", "now"]])
      [clock .ios ["tick", "now"]]
      (merge [clock .android ["now"], clock .android ["zone"]] [clock .ios ["tick", "now"]]).1 :=
  ⟨by decide, (merge_isMerge (by decide)).1⟩

end DartBindings.Bridge
