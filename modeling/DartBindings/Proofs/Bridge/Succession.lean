import DartBindings.Proofs.Bridge.Merge

/-!
The definitions that a member has, one after the other.

A merge goes through the entities in order, and each entity may define a member anew. What comes
out is the last of these definitions, and what is reported are the places where one differs from
the one before. Both are read off the succession of definitions alone, so the reports are judged
without the merge: none of the definitions that give way is missing, and the one reported last is
the one that stays.
-/

set_option autoImplicit false

namespace DartBindings.Bridge

/-! ## The last definition -/

theorem lastNamed?_append (name : String) (first last : List Callable) :
    lastNamed? name (first ++ last) = (lastNamed? name last).or (lastNamed? name first) := by
  simp only [lastNamed?, List.reverse_append, List.find?_append]

theorem lastNamed?_cons (name : String) (callable : Callable) (rest : List Callable) :
    lastNamed? name (callable :: rest) =
      (lastNamed? name rest).or (if callable.name = name then some callable else none) := by
  rw [← List.singleton_append, lastNamed?_append]
  congr 1
  by_cases same : callable.name = name <;> simp [lastNamed?, same]

theorem lastNamed?_filterMap_chosen? (incumbent newcomer : List Callable) (names : List String)
    (name : String) :
    lastNamed? name (names.filterMap (chosen? incumbent newcomer)) =
      if name ∈ names then chosen? incumbent newcomer name else none := by
  induction names with
  | nil => rfl
  | cons other names ih =>
      cases chosen : chosen? incumbent newcomer other with
      | none =>
          rw [List.filterMap_cons_none chosen, ih]
          by_cases same : name = other
          · subst same
            simp [chosen]
          · simp [same]
      | some callable =>
          have named := (chosen?_some chosen).1
          rw [List.filterMap_cons_some chosen, lastNamed?_cons, ih, named]
          by_cases same : other = name
          · subst same
            by_cases again : other ∈ names <;> simp [again, chosen]
          · have different : name ≠ other := fun equal => same equal.symm
            simp [same, different]

/-- A union defines each member as the newcomer does, or else as the incumbent does. -/
theorem lastNamed?_unify (name : String) (incumbent newcomer : Entity) (origin : Origin) :
    lastNamed? name (unify incumbent newcomer origin).1.callables =
      (lastNamed? name newcomer.callables).or (lastNamed? name incumbent.callables) := by
  change lastNamed? name (List.filterMap _ _) = chosen? _ _ name
  rw [lastNamed?_filterMap_chosen?]
  split
  · rfl
  · rename_i absent
    rw [unifiedNames_eq, List.mem_eraseDups, ← List.map_append] at absent
    exact (chosen?_eq_none_iff.mpr absent).symm

theorem lastNamed?_of_mem {callables : List Callable} {callable : Callable}
    (distinct : (callables.map (·.name)).Nodup) (member : callable ∈ callables) :
    lastNamed? callable.name callables = some callable := by
  induction callables with
  | nil => cases member
  | cons first rest ih =>
      rw [List.map_cons, List.nodup_cons] at distinct
      rw [lastNamed?_cons]
      rcases List.mem_cons.mp member with rfl | later
      · rw [lastNamed?_eq_none_iff.mpr distinct.1]
        simp
      · rw [ih distinct.2 later, Option.some_or]

/-! ## Changes -/

/-- Each element that differs from the one before it, after that one. -/
def changes : List Callable → List (Callable × Callable)
  | first :: second :: rest =>
    if first = second then changes (second :: rest) else (first, second) :: changes (second :: rest)
  | _ => []

theorem changes_append (first last : List Callable) :
    changes (first ++ last) = changes first ++ changes (first.getLast?.toList ++ last) := by
  induction first with
  | nil => rfl
  | cons callable first ih =>
      cases first with
      | nil => rfl
      | cons next first =>
          rw [List.cons_append] at ih
          rw [List.cons_append, List.cons_append, changes, changes, ih, List.getLast?_cons_cons]
          split <;> rfl

theorem getLast?_append_getLast? (first last : List Callable) :
    (first.getLast?.toList ++ last).getLast? = (first ++ last).getLast? := by
  rw [List.getLast?_append, List.getLast?_append]
  cases first.getLast? <;> rfl

theorem of_mem_changes {definitions : List Callable} {change : Callable × Callable}
    (member : change ∈ changes definitions) :
    change.1 ∈ definitions ∧ change.2 ∈ definitions ∧ change.1 ≠ change.2 := by
  induction definitions with
  | nil => cases member
  | cons first rest ih =>
      cases rest with
      | nil => cases member
      | cons second rest =>
          have later (among : change ∈ changes (second :: rest)) :
              change.1 ∈ first :: second :: rest ∧ change.2 ∈ first :: second :: rest ∧
                change.1 ≠ change.2 := by
            obtain ⟨dropped, kept, different⟩ := ih among
            exact ⟨List.mem_cons_of_mem _ dropped, List.mem_cons_of_mem _ kept, different⟩
          rw [changes] at member
          split at member
          · exact later member
          · rename_i different
            rcases List.mem_cons.mp member with rfl | among
            · exact ⟨List.mem_cons_self, List.mem_cons_of_mem _ List.mem_cons_self, different⟩
            · exact later among

/-- A definition that is not the last one gives way somewhere. -/
theorem exists_change_of_mem {definitions : List Callable} {callable : Callable}
    (member : callable ∈ definitions) (replaced : definitions.getLast? ≠ some callable) :
    ∃ kept, (callable, kept) ∈ changes definitions := by
  induction definitions with
  | nil => cases member
  | cons first rest ih =>
      cases rest with
      | nil => exact absurd (by rw [List.mem_singleton.mp member]; rfl) replaced
      | cons second rest =>
          rw [List.getLast?_cons_cons] at replaced
          rw [changes]
          rcases List.mem_cons.mp member with rfl | later
          · by_cases same : callable = second
            · rw [if_pos same]
              exact ih (same ▸ List.mem_cons_self) replaced
            · rw [if_neg same]
              exact ⟨second, List.mem_cons_self⟩
          · obtain ⟨kept, among⟩ := ih later replaced
            refine ⟨kept, ?_⟩
            split
            · exact among
            · exact List.mem_cons_of_mem _ among

theorem head_changes {first : Callable} {rest : List Callable} {change : Callable × Callable}
    {others : List (Callable × Callable)} (found : changes (first :: rest) = change :: others) :
    change.1 = first := by
  induction rest generalizing first with
  | nil => cases found
  | cons second rest ih =>
      rw [changes] at found
      split at found
      · rename_i same
        rw [same]
        exact ih found
      · cases found
        rfl

theorem getLast?_of_changes_nil {first : Callable} {rest : List Callable}
    (none : changes (first :: rest) = []) : (first :: rest).getLast? = some first := by
  induction rest generalizing first with
  | nil => rfl
  | cons second rest ih =>
      rw [changes] at none
      split at none
      · rename_i same
        rw [List.getLast?_cons_cons, same]
        exact ih none
      · cases none

/-- The last change is a change to what comes last. -/
theorem getLast?_changes {definitions : List Callable} {change : Callable × Callable}
    (last : (changes definitions).getLast? = some change) :
    definitions.getLast? = some change.2 := by
  induction definitions with
  | nil => cases last
  | cons first rest ih =>
      cases rest with
      | nil => cases last
      | cons second rest =>
          rw [List.getLast?_cons_cons]
          rw [changes] at last
          split at last
          · exact ih last
          · cases later : changes (second :: rest) with
            | nil =>
                rw [later] at last
                cases last
                exact getLast?_of_changes_nil later
            | cons next others =>
                rw [later, List.getLast?_cons_cons, ← later] at last
                exact ih last

/-- All changes are changes to what comes last only if there is just one. -/
theorem length_changes_le_one_iff {definitions : List Callable} :
    (changes definitions).length ≤ 1 ↔
      ∀ change ∈ changes definitions, definitions.getLast? = some change.2 := by
  induction definitions with
  | nil => simp [changes]
  | cons first rest ih =>
      cases rest with
      | nil => simp [changes]
      | cons second rest =>
          rw [List.getLast?_cons_cons]
          rw [changes]
          split
          · exact ih
          · cases later : changes (second :: rest) with
            | nil => simpa using getLast?_of_changes_nil later
            | cons next others =>
                -- the next change is away from what the first one is to
                constructor
                · intro short
                  simp at short
                · intro kept
                  have start := head_changes later
                  have moved := (of_mem_changes (later ▸ List.mem_cons_self : next ∈ _)).2.2
                  have same := (kept (first, second) List.mem_cons_self).symm.trans
                    (kept next (List.mem_cons_of_mem _ List.mem_cons_self))
                  exact absurd (start.trans (Option.some.inj same)) moved

/-! ## Successions -/

/-- The definition of a member in the first entity of that name. -/
def definition? (entity callable : String) (entities : List Entity) : Option Callable :=
  (entities.find? fun other => other.name == entity).bind fun found =>
    lastNamed? callable found.callables

/-- What an entity contributes to the definitions of a member. -/
def defined? (entity callable : String) (other : Entity) : Option Callable :=
  if other.name = entity then lastNamed? callable other.callables else none

/-- All definitions of a member, in the order of the entities. -/
def definitions (entity callable : String) (entities : List Entity) : List Callable :=
  entities.filterMap (defined? entity callable)

/-- The conflicts over a member, in order. -/
def conflictsOver (entity callable : String) (conflicts : List Conflict) : List Conflict :=
  conflicts.filter fun conflict => conflict.entity == entity && conflict.callable == callable

/-- The conflict that a change of the definition is reported as. -/
def reported (entity callable : String) (change : Callable × Callable) : Conflict :=
  ⟨entity, callable, change.2, change.1⟩

theorem conflictsOver_append (entity callable : String) (first last : List Conflict) :
    conflictsOver entity callable (first ++ last) =
      conflictsOver entity callable first ++ conflictsOver entity callable last :=
  List.filter_append first last

theorem definitions_append (entity callable : String) (first last : List Entity) :
    definitions entity callable (first ++ last) =
      definitions entity callable first ++ definitions entity callable last :=
  List.filterMap_append

section Steps

variable {entity callable : String}

theorem definitions_cons (other : Entity) (rest : List Entity) :
    definitions entity callable (other :: rest) =
      (defined? entity callable other).toList ++ definitions entity callable rest := by
  rw [definitions, definitions, List.filterMap_cons]
  cases defined? entity callable other <;> rfl

theorem definition?_cons (other : Entity) (rest : List Entity) :
    definition? entity callable (other :: rest) =
      if other.name = entity then lastNamed? callable other.callables
      else definition? entity callable rest := by
  by_cases ours : other.name = entity <;> simp [definition?, ours]

theorem conflict?_some {incumbent newcomer : List Callable} {conflict : Conflict}
    (found : conflict? entity incumbent newcomer callable = some conflict) :
    conflict.entity = entity ∧ conflict.callable = callable := by
  unfold conflict? at found
  split at found
  · split at found
    · cases found
    · cases found
      exact ⟨rfl, rfl⟩
  · cases found

theorem conflict?_toList (incumbent newcomer : List Callable) :
    (conflict? entity incumbent newcomer callable).toList =
      (changes ((lastNamed? callable incumbent).toList ++
        (lastNamed? callable newcomer).toList)).map (reported entity callable) := by
  unfold conflict?
  cases lastNamed? callable newcomer with
  | none => cases lastNamed? callable incumbent <;> rfl
  | some kept =>
      cases lastNamed? callable incumbent with
      | none => rfl
      | some dropped =>
          by_cases same : dropped = kept
          · simp [changes, same]
          · have different : ¬ kept = dropped := fun equal => same equal.symm
            simp [changes, same, different, reported]

theorem conflictsOver_filterMap (name : String) (incumbent newcomer : List Callable)
    {names : List String} (distinct : names.Nodup) :
    conflictsOver entity callable (names.filterMap (conflict? name incumbent newcomer)) =
      if name = entity ∧ callable ∈ names then
        (conflict? name incumbent newcomer callable).toList
      else [] := by
  induction names with
  | nil => simp [conflictsOver]
  | cons other names ih =>
      rw [List.nodup_cons] at distinct
      have rest := ih distinct.2
      cases found : conflict? name incumbent newcomer other with
      | none =>
          rw [List.filterMap_cons_none found, rest]
          by_cases same : callable = other
          · subst same
            simp [distinct.1, found]
          · simp [same]
      | some conflict =>
          obtain ⟨ofEntity, ofCallable⟩ := conflict?_some found
          rw [List.filterMap_cons_some found, conflictsOver, List.filter_cons, ← conflictsOver,
            rest, ofEntity, ofCallable]
          by_cases same : callable = other
          · subst same
            simp [distinct.1, found]
          · have different : ¬ other = callable := fun equal => same equal.symm
            simp [same, different]

theorem conflictsOver_unify (incumbent newcomer : Entity) (origin : Origin) :
    conflictsOver entity callable (unify incumbent newcomer origin).2 =
      if incumbent.name = entity then
        (changes ((lastNamed? callable incumbent.callables).toList ++
          (lastNamed? callable newcomer.callables).toList)).map (reported entity callable)
      else [] := by
  have distinct : (unifiedNames incumbent.callables newcomer.callables).Nodup := by
    rw [unifiedNames_eq]
    exact nodup_eraseDups _
  change conflictsOver entity callable (List.filterMap _ _) = _
  rw [conflictsOver_filterMap _ _ _ distinct]
  by_cases same : incumbent.name = entity
  · subst same
    rw [if_pos rfl, ← conflict?_toList]
    split
    · rfl
    · -- a member that neither entity defines is in no conflict
      rename_i absent
      rw [unifiedNames_eq, List.mem_eraseDups, ← List.map_append] at absent
      have undefined : lastNamed? callable newcomer.callables = none := by
        rw [lastNamed?_eq_none_iff]
        intro member
        simp [List.map_append, member] at absent
      rw [conflict?, undefined]
      rfl
  · simp [same]

section Absorb

variable {incumbent newcomer : Entity}

theorem absorb_same (change : Origin → Origin) (same : incumbent.name = newcomer.name)
    (rest : List Entity) :
    absorb change newcomer (incumbent :: rest) =
      ((unify incumbent newcomer (change incumbent.origin)).1 :: rest,
        (unify incumbent newcomer (change incumbent.origin)).2) := by
  rw [absorb, if_pos same]

theorem absorb_other (change : Origin → Origin) (other : incumbent.name ≠ newcomer.name)
    (rest : List Entity) :
    absorb change newcomer (incumbent :: rest) =
      (incumbent :: (absorb change newcomer rest).1, (absorb change newcomer rest).2) := by
  rw [absorb, if_neg other]

theorem changes_toList (found : Option Callable) : changes found.toList = [] := by
  cases found <;> rfl

/-- A newcomer's definition takes the place of the earlier one. -/
theorem definition?_absorb (change : Origin → Origin) (newcomer : Entity) (merged : List Entity) :
    definition? entity callable (absorb change newcomer merged).1 =
      (defined? entity callable newcomer).or (definition? entity callable merged) := by
  unfold defined?
  induction merged with
  | nil =>
      rw [absorb, definition?_cons]
      exact Option.or_none.symm
  | cons incumbent rest ih =>
      by_cases same : incumbent.name = newcomer.name
      · have name : (unify incumbent newcomer (change incumbent.origin)).1.name = newcomer.name :=
          same
        rw [absorb_same change same, definition?_cons, definition?_cons, name, same,
          lastNamed?_unify]
        split <;> rfl
      · rw [absorb_other change same, definition?_cons, definition?_cons, ih]
        split
        · rename_i ours
          rw [if_neg fun equal => same (ours.trans equal.symm), Option.none_or]
        · rfl

/-- A newcomer's definition is reported if it differs from the earlier one. -/
theorem conflictsOver_absorb (change : Origin → Origin) (newcomer : Entity)
    (merged : List Entity) :
    conflictsOver entity callable (absorb change newcomer merged).2 =
      (changes ((definition? entity callable merged).toList ++
        (defined? entity callable newcomer).toList)).map (reported entity callable) := by
  unfold defined?
  induction merged with
  | nil =>
      have none := changes_toList (if newcomer.name = entity then
        lastNamed? callable newcomer.callables else none)
      exact (congrArg (List.map (reported entity callable)) none).symm
  | cons incumbent rest ih =>
      rw [definition?_cons]
      by_cases same : incumbent.name = newcomer.name
      · rw [absorb_same change same, conflictsOver_unify, same]
        split
        · rfl
        · rw [Option.toList_none, List.append_nil, changes_toList]
          rfl
      · rw [absorb_other change same, ih]
        by_cases ours : incumbent.name = entity
        · have other : newcomer.name ≠ entity := fun equal => same (ours.trans equal.symm)
          rw [if_neg other, Option.toList_none, List.append_nil, List.append_nil, changes_toList,
            changes_toList]
        · rw [if_neg ours]

end Absorb

/-- The run: the definitions of the newcomers come after the one that was there. -/
theorem absorbAll_succession (change : Origin → Origin) (merged rest : List Entity) :
    definition? entity callable (absorbAll change merged rest).1 =
        ((definition? entity callable merged).toList ++
          definitions entity callable rest).getLast? ∧
      conflictsOver entity callable (absorbAll change merged rest).2 =
        (changes ((definition? entity callable merged).toList ++
          definitions entity callable rest)).map (reported entity callable) := by
  induction rest generalizing merged with
  | nil => cases found : definition? entity callable merged <;> exact ⟨found, rfl⟩
  | cons newcomer rest ih =>
      obtain ⟨final, reports⟩ := ih (absorb change newcomer merged).1
      have current : ((definition? entity callable merged).toList ++
          (defined? entity callable newcomer).toList).getLast? =
            (defined? entity callable newcomer).or (definition? entity callable merged) := by
        cases definition? entity callable merged <;> cases defined? entity callable newcomer <;> rfl
      rw [definition?_absorb, ← current] at final reports
      simp only [absorbAll]
      rw [definitions_cons, ← List.append_assoc, conflictsOver_append, conflictsOver_absorb,
        reports, ← List.map_append, ← changes_append, final, getLast?_append_getLast?]
      exact ⟨rfl, rfl⟩

end Steps

/-- What a merge makes of a member: the last of its definitions, with a conflict for each one
that differs from the one before. -/
theorem merge_succession (entity callable : String) (first second : List Entity) :
    definition? entity callable (merge first second).1 =
        (definitions entity callable (first ++ second)).getLast? ∧
      conflictsOver entity callable (merge first second).2 =
        (changes (definitions entity callable (first ++ second))).map
          (reported entity callable) := by
  obtain ⟨current, before⟩ := @absorbAll_succession entity callable id [] first
  obtain ⟨final, after⟩ :=
    @absorbAll_succession entity callable (fun _ => .unified) (absorbAll id [] first).1 second
  change _ = (definitions entity callable first).getLast? at current
  change _ = (changes (definitions entity callable first)).map _ at before
  rw [current] at final after
  rw [definitions_append]
  constructor
  · change definition? entity callable (absorbAll _ _ second).1 = _
    rw [final, getLast?_append_getLast?]
  · change conflictsOver entity callable (_ ++ _) = _
    rw [conflictsOver_append, before, after, ← List.map_append, ← changes_append]

end DartBindings.Bridge
