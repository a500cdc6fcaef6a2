import DartBindings.Proofs.Declaration.Walk

/-!
Walks that come by a place. What a walk finds is what it has found when it stands there, and then
what it finds from there on.
-/

set_option autoImplicit false

namespace DartBindings.Declaration

open Source

variable {dialect : Dialect} {text : List Char} {extent : Extent}

/-- A walk in the first state is later in the second one. -/
inductive Walk.Reaches (dialect : Dialect) (text : List Char) (extent : Extent) :
    Walk → Walk → Prop where
  | refl {walk} : Walk.Reaches dialect text extent walk walk
  | step {walk later token} :
      nextToken text walk.pos extent.stop = some token →
      Walk.Reaches dialect text extent (walk.atToken dialect text extent token).1 later →
      Walk.Reaches dialect text extent walk later

theorem Walk.Reaches.headers_eq {walk later : Walk}
    (reaches : Walk.Reaches dialect text extent walk later) :
    ∃ found, walk.headers dialect text extent = found ++ later.headers dialect text extent := by
  induction reaches with
  | refl => exact ⟨[], rfl⟩
  | @step walk later token read _ ih =>
      obtain ⟨found, rest⟩ := ih
      refine ⟨(walk.atToken dialect text extent token).2.toList ++ found, ?_⟩
      rw [Walk.headers_of_some read, rest, List.append_assoc]

end DartBindings.Declaration
