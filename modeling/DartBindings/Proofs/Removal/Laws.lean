import DartBindings.Proofs.Removal
import Mathlib.Data.List.Forall2

/-!
Laws of removing. What the removals leave of an entity does not depend on the other entities, and
of the removals only the set counts: their order and their number make no difference, a second time
changes nothing, and more removals leave less.
-/

set_option autoImplicit false

namespace DartBindings

open Bridge

/-- What the removals leave of an entity: nothing if one of them is of its name or if no member is
left, or else the entity with the members that are left. -/
def remains? [Regex.CharacterNames] (removals : List Removal) (entity : Entity) : Option Entity :=
  if isCovered removals entity.name || (uncovered removals entity).isEmpty then none
  else some { entity with callables := uncovered removals entity }

/-- An entity of the same name and origin with some of the members, in the same order. -/
structure IsPartOf (part entity : Entity) : Prop where
  name : part.name = entity.name
  origin : part.origin = entity.origin
  callables : part.callables.Sublist entity.callables

section Laws

variable [Regex.CharacterNames] {removals others more : List Removal} {entity part : Entity}
  {entities : List Entity}

/-! ## One entity -/

theorem isCovered_congr (same : ∀ removal, removal ∈ others ↔ removal ∈ removals) (name : String) :
    isCovered others name = isCovered removals name := by
  rw [Bool.eq_iff_iff]
  simp only [isCovered, List.any_eq_true, same]

theorem isCovered_mono (within : removals ⊆ more) {name : String}
    (covered : isCovered removals name = true) : isCovered more name = true := by
  simp only [isCovered, List.any_eq_true] at covered ⊢
  obtain ⟨removal, member, covers⟩ := covered
  exact ⟨removal, within member, covers⟩

theorem remains?_eq_some_iff :
    remains? removals entity = some part ↔
      isCovered removals entity.name = false ∧ uncovered removals entity ≠ [] ∧
        part = { entity with callables := uncovered removals entity } := by
  unfold remains?
  cases covered : isCovered removals entity.name with
  | true => simp
  | false =>
      cases left : uncovered removals entity with
      | nil => simp
      | cons callable rest => simp [eq_comm]

theorem remains?_congr (same : ∀ removal, removal ∈ others ↔ removal ∈ removals)
    (entity : Entity) : remains? others entity = remains? removals entity := by
  have members : uncovered others entity = uncovered removals entity :=
    List.filter_congr fun callable _ => by rw [isCovered_congr same]
  rw [remains?, remains?, isCovered_congr same, members]

theorem uncovered_uncovered (removals : List Removal) (entity : Entity) :
    uncovered removals { entity with callables := uncovered removals entity } =
      uncovered removals entity := by
  simp only [uncovered, List.filter_filter, Bool.and_self]

/-- What is left stays when the removals are applied again. -/
theorem remains?_of_remains? (left : remains? removals entity = some part) :
    remains? removals part = some part := by
  obtain ⟨named, some, rfl⟩ := remains?_eq_some_iff.mp left
  refine remains?_eq_some_iff.mpr ⟨named, ?_, ?_⟩
  · rwa [uncovered_uncovered]
  · rw [uncovered_uncovered]

/-- More removals leave a part of what fewer leave. -/
theorem remains?_mono (within : removals ⊆ more) (left : remains? more entity = some part) :
    ∃ whole, remains? removals entity = some whole ∧ IsPartOf part whole := by
  obtain ⟨named, some, rfl⟩ := remains?_eq_some_iff.mp left
  have fewer : (uncovered more entity).Sublist (uncovered removals entity) := by
    apply List.monotone_filter_right
    intro callable stays
    rw [Bool.not_eq_true'] at stays ⊢
    exact Bool.eq_false_iff.mpr fun covered =>
      Bool.eq_false_iff.mp stays (isCovered_mono within covered)
  have unnamed : isCovered removals entity.name = false :=
    Bool.eq_false_iff.mpr fun covered =>
      Bool.eq_false_iff.mp named (isCovered_mono within covered)
  have kept : uncovered removals entity ≠ [] := fun none =>
    some (List.eq_nil_of_sublist_nil (none ▸ fewer))
  exact ⟨_, remains?_eq_some_iff.mpr ⟨unnamed, kept, rfl⟩, rfl, rfl, fewer⟩

/-! ## All entities -/

theorem withoutCovered_eq (populated : ∀ entity ∈ entities, entity.callables ≠ []) :
    withoutCovered removals entities = entities.filterMap (remains? removals) := by
  unfold withoutCovered
  split
  · rename_i none
    obtain rfl := List.isEmpty_iff.mp none
    have whole (entity : Entity) : uncovered [] entity = entity.callables := by
      simp [uncovered, isCovered]
    rw [List.filterMap_congr (g := some), List.filterMap_some]
    intro entity member
    refine remains?_eq_some_iff.mpr ⟨rfl, ?_, ?_⟩
    · rw [whole]
      exact populated entity member
    · rw [whole]
  · clear populated
    induction entities with
    | nil => rfl
    | cons entity entities ih =>
        rw [List.filterMap_cons, List.filter_cons, remains?]
        cases isCovered removals entity.name with
        | true => simpa using ih
        | false => cases left : uncovered removals entity <;> simpa [left] using ih

/-- With readable removals each entity is looked at alone. -/
theorem removeFrom_eq (valid : ∀ removal ∈ removals, removal.IsValid)
    (populated : ∀ entity ∈ entities, entity.callables ≠ []) :
    removeFrom removals entities = .ok (entities.filterMap (remains? removals)) := by
  rw [removeFrom_of_valid valid, withoutCovered_eq populated]

theorem populated_filterMap :
    ∀ part ∈ entities.filterMap (remains? removals), part.callables ≠ [] := by
  intro part member
  obtain ⟨entity, -, left⟩ := List.mem_filterMap.mp member
  obtain ⟨-, some, rfl⟩ := remains?_eq_some_iff.mp left
  exact some

theorem filterMap_filterMap_remains? :
    (entities.filterMap (remains? removals)).filterMap (remains? removals) =
      entities.filterMap (remains? removals) := by
  rw [List.filterMap_congr (g := some), List.filterMap_some]
  intro part member
  obtain ⟨entity, -, left⟩ := List.mem_filterMap.mp member
  exact remains?_of_remains? left

theorem filterMap_remains?_mono (within : removals ⊆ more) :
    List.SublistForall₂ IsPartOf (entities.filterMap (remains? more))
      (entities.filterMap (remains? removals)) := by
  induction entities with
  | nil => exact .nil
  | cons entity entities ih =>
      rw [List.filterMap_cons, List.filterMap_cons]
      cases left : remains? more entity with
      | none =>
          cases remains? removals entity with
          | none => exact ih
          | some whole => exact .cons_right ih
      | some part =>
          obtain ⟨whole, before, smaller⟩ := remains?_mono within left
          rw [before]
          exact .cons smaller ih

/-- Removals act as a set. What is kept is, in the old order, what they leave of each entity;
other removals of the same set keep the same, the same removals keep all of what they have kept,
and further removals keep a part of it. -/
theorem removeFrom_laws (valid : ∀ removal ∈ removals, removal.IsValid)
    (populated : ∀ entity ∈ entities, entity.callables ≠ []) :
    let kept := entities.filterMap (remains? removals)
    removeFrom removals entities = .ok kept ∧
      (∀ others, (∀ removal, removal ∈ others ↔ removal ∈ removals) →
        removeFrom others entities = .ok kept) ∧
      removeFrom removals kept = .ok kept ∧
      ∀ more, (∀ removal ∈ more, removal.IsValid) → removals ⊆ more →
        ∃ fewer, removeFrom more entities = .ok fewer ∧
          List.SublistForall₂ IsPartOf fewer kept := by
  intro kept
  refine ⟨removeFrom_eq valid populated, fun others same => ?_, ?_, fun more validMore within => ?_⟩
  · have validOthers : ∀ removal ∈ others, removal.IsValid :=
      fun removal member => valid removal ((same removal).mp member)
    rw [removeFrom_eq validOthers populated, List.filterMap_congr fun entity _ =>
      remains?_congr same entity]
  · rw [removeFrom_eq valid populated_filterMap, filterMap_filterMap_remains?]
  · exact ⟨_, removeFrom_eq validMore populated, filterMap_remains?_mono within⟩

end Laws

/-- A class goes by its name, another one because its only member goes, and a third one loses a
member to a pattern. -/
theorem removeFrom_laws_device :
    let _ := Regex.asciiNames
    let reset : Callable := ⟨.call, "internalReset", "Unit", []⟩
    let model : Callable := ⟨.call, "getModel", "String", []⟩
    let dump : Callable := ⟨.call, "dump", "String", []⟩
    let removals : List Removal :=
      [.named "Debug", .matching "Device\\.internal.*", .named "Log.dump"]
    let entities : List Entity :=
      [⟨"Device", [model, reset], .unified⟩, ⟨"Debug", [dump], .android⟩, ⟨"Log", [dump], .ios⟩]
    let kept : List Entity := [⟨"Device", [model], .unified⟩]
    (∀ removal ∈ removals, removal.IsValid) ∧ (∀ entity ∈ entities, entity.callables ≠ []) ∧
      removeFrom removals entities = .ok kept ∧
      removeFrom (removals.reverse ++ removals) entities = .ok kept ∧
      removeFrom removals kept = .ok kept := by
  intro _ reset model dump removals entities kept
  have valid : ∀ removal ∈ removals, removal.IsValid := by
    have pattern : (Regex.Pattern.ofString "Device\\.internal.*").isOk = true := by decide +kernel
    simpa [removals, Removal.IsValid] using pattern
  have populated : ∀ entity ∈ entities, entity.callables ≠ [] := by simp [entities]
  have left : entities.filterMap (remains? removals) = kept := by decide +kernel
  obtain ⟨once, anyOrder, twice, -⟩ := removeFrom_laws valid populated
  rw [left] at once anyOrder twice
  exact ⟨valid, populated, once, anyOrder _ (by simp), twice⟩

end DartBindings
