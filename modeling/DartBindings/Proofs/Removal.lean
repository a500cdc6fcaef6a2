import DartBindings.Removal

/-!
What removals leave. If every removal can be read, then removing is filtering: by the names of the
entities, by the names of their members, and at last by whether an entity has a member left.
-/

set_option autoImplicit false

namespace DartBindings

open Bridge Regex

variable [CharacterNames]

/-- A removal that is a name, or a text that can be read as a pattern. -/
def Removal.IsValid : Removal → Prop
  | .named _ => True
  | .matching text => (Pattern.ofString text).isOk = true

/-- The removal is of this name. A text that is no pattern is of none. -/
def Removal.covers (name : String) : Removal → Bool
  | .named text => text == name
  | .matching text =>
    match Pattern.ofString text with
    | .ok pattern => pattern.matchesAll name.toList
    | .error _ => false

/-- One of the removals is of this name. -/
def isCovered (removals : List Removal) (name : String) : Bool :=
  removals.any (Removal.covers name)

/-- The members of an entity that no removal is of. -/
def uncovered (removals : List Removal) (entity : Entity) : List Callable :=
  entity.callables.filter fun callable =>
    !isCovered removals (entity.name ++ "." ++ callable.name)

/-- The entities that no removal is of, with the members that no removal is of. Where there are
removals at all, entities without members are left out. -/
def withoutCovered (removals : List Removal) (entities : List Entity) : List Entity :=
  if removals.isEmpty then entities
  else
    ((entities.filter fun entity => !isCovered removals entity.name).map fun entity =>
      { entity with callables := uncovered removals entity }).filter fun entity =>
        !entity.callables.isEmpty

section Valid

variable {removals : List Removal}

theorem Removal.applies_of_valid {removal : Removal} (valid : removal.IsValid) (name : String) :
    removal.applies name = .ok (removal.covers name) := by
  cases removal with
  | named text => rfl
  | matching text =>
      simp only [Removal.IsValid] at valid
      simp only [Removal.applies, Removal.covers]
      cases read : Pattern.ofString text with
      | ok pattern => rfl
      | error flaw =>
          rw [read] at valid
          cases valid

theorem isRemoved_of_valid (valid : ∀ removal ∈ removals, removal.IsValid) (name : String) :
    isRemoved removals name = .ok (isCovered removals name) := by
  induction removals with
  | nil => rfl
  | cons removal rest ih =>
      have first := Removal.applies_of_valid (valid removal List.mem_cons_self) name
      have later := ih fun other member => valid other (List.mem_cons_of_mem _ member)
      rw [isRemoved, first, isCovered, List.any_cons]
      cases removal.covers name with
      | true => rfl
      | false => exact later

theorem keptCallables_of_valid (valid : ∀ removal ∈ removals, removal.IsValid) (entity : String)
    (callables : List Callable) :
    keptCallables removals entity callables =
      .ok (callables.filter fun callable =>
        !isCovered removals (entity ++ "." ++ callable.name)) := by
  induction callables with
  | nil => rfl
  | cons callable rest ih =>
      rw [keptCallables, isRemoved_of_valid valid, ih, List.filter_cons]
      cases isCovered removals (entity ++ "." ++ callable.name) <;> rfl

theorem keptEntities_of_valid (valid : ∀ removal ∈ removals, removal.IsValid)
    (entities : List Entity) :
    keptEntities removals entities =
      .ok (((entities.filter fun entity => !isCovered removals entity.name).map fun entity =>
        { entity with callables := uncovered removals entity }).filter fun entity =>
          !entity.callables.isEmpty) := by
  induction entities with
  | nil => rfl
  | cons entity rest ih =>
      have members : keptCallables removals entity.name entity.callables =
          .ok (uncovered removals entity) := keptCallables_of_valid valid _ _
      rw [keptEntities, isRemoved_of_valid valid, members, ih, List.filter_cons]
      cases isCovered removals entity.name with
      | true => rfl
      | false =>
          rw [Bool.not_false, if_pos rfl, List.map_cons, List.filter_cons]
          cases uncovered removals entity <;> rfl

theorem removeFrom_of_valid (valid : ∀ removal ∈ removals, removal.IsValid)
    (entities : List Entity) :
    removeFrom removals entities = .ok (withoutCovered removals entities) := by
  unfold removeFrom withoutCovered
  split
  · rfl
  · exact keptEntities_of_valid valid entities

end Valid

end DartBindings
