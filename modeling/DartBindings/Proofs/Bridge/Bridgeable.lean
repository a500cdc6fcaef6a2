import DartBindings.Proofs.Bridge.Merge

/-!
Entities that can be bridged, and that a merge keeps them so.
-/

set_option autoImplicit false

namespace DartBindings.Bridge

/-- A name that no full stop divides. -/
def Undivided (name : String) : Prop :=
  '.' ∉ name.toList

/-- There is a member, and no two members have one name. -/
structure Bridgeable (entity : Entity) : Prop where
  nonempty : entity.callables ≠ []
  distinct : entity.callableNames.Nodup
  name : Undivided entity.name
  names : ∀ name ∈ entity.callableNames, Undivided name

theorem callableNames_ne_nil_iff {entity : Entity} :
    entity.callableNames ≠ [] ↔ entity.callables ≠ [] := by
  simp [Entity.callableNames]

theorem Bridgeable.unify {incumbent newcomer : Entity} (origin : Origin)
    (first : Bridgeable incumbent) (second : Bridgeable newcomer) :
    Bridgeable (unify incumbent newcomer origin).1 := by
  have names := callableNames_unify incumbent newcomer origin
  constructor
  · rw [← callableNames_ne_nil_iff, names]
    obtain ⟨name, rest, split⟩ :=
      List.exists_cons_of_ne_nil (callableNames_ne_nil_iff.mpr first.nonempty)
    rw [split, List.cons_append, List.eraseDups_cons]
    exact List.cons_ne_nil _ _
  · rw [names]
    exact nodup_eraseDups _
  · exact first.name
  · intro name member
    rw [names, List.mem_eraseDups, List.mem_append] at member
    rcases member with own | other
    · exact first.names name own
    · exact second.names name other

/-- Entities of different names, each of which can be bridged. -/
structure AllBridgeable (entities : List Entity) : Prop where
  distinct : (entities.map (·.name)).Nodup
  each : ∀ entity ∈ entities, Bridgeable entity

theorem AllBridgeable.absorb {merged : List Entity} {newcomer : Entity}
    (change : Origin → Origin) (all : AllBridgeable merged) (new : Bridgeable newcomer) :
    AllBridgeable (absorb change newcomer merged).1 := by
  constructor
  · exact nodup_map_name_absorb change newcomer all.distinct
  · intro entity member
    rcases mem_absorb all.distinct member with ⟨kept, -⟩ | ⟨rfl, -⟩ | ⟨incumbent, kept, -, rfl⟩
    · exact all.each entity kept
    · exact new
    · exact (all.each incumbent kept).unify _ new

theorem AllBridgeable.absorbAll {merged rest : List Entity} (change : Origin → Origin)
    (all : AllBridgeable merged) (new : ∀ entity ∈ rest, Bridgeable entity) :
    AllBridgeable (absorbAll change merged rest).1 := by
  induction rest generalizing merged with
  | nil => exact all
  | cons newcomer rest ih =>
      have next := all.absorb change (new newcomer List.mem_cons_self)
      exact ih next fun entity member => new entity (List.mem_cons_of_mem _ member)

theorem allBridgeable_merge {first second : List Entity}
    (each : ∀ entity ∈ first ++ second, Bridgeable entity) :
    AllBridgeable (merge first second).1 := by
  have start : AllBridgeable [] := ⟨List.nodup_nil, by simp⟩
  have ofFirst := start.absorbAll id
    fun entity member => each entity (List.mem_append_left _ member)
  exact ofFirst.absorbAll _ fun entity member => each entity (List.mem_append_right _ member)

end DartBindings.Bridge
