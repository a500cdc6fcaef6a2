import DartBindings.Bridge.Entity

/-!
Merging the entities of two platforms.

Entities of one name become one entity. Its members are those of all of them, each name once and
in the order of its first occurrence, and each with the definition that came last. Where a
definition gives way to a different one, a conflict is reported. An entity of the second list
that meets an earlier one makes it unified, wherever the two come from.
-/

set_option autoImplicit false

namespace DartBindings.Bridge

/-- A member that two entities of one name define differently: the definition that stays, and
the one that gives way. -/
structure Conflict where
  entity : String
  callable : String
  kept : Callable
  dropped : Callable
  deriving DecidableEq, Repr

def lastNamed? (name : String) (callables : List Callable) : Option Callable :=
  callables.reverse.find? fun callable => callable.name == name

/-- The names without repetitions, in the order of their first occurrences. -/
def distinctNames : List String → List String
  | [] => []
  | name :: names => name :: (distinctNames names).filter fun other => other != name

/-- The definition of a name that stays, the newcomer's if it has one. -/
def chosen? (incumbent newcomer : List Callable) (name : String) : Option Callable :=
  (lastNamed? name newcomer).or (lastNamed? name incumbent)

/-- The conflict over a name, if both sides define it and differ. -/
def conflict? (entity : String) (incumbent newcomer : List Callable) (name : String) :
    Option Conflict :=
  match lastNamed? name newcomer, lastNamed? name incumbent with
  | some kept, some dropped => if kept = dropped then none else some ⟨entity, name, kept, dropped⟩
  | _, _ => none

/-- The names that either side defines, the incumbent's first. -/
def unifiedNames (incumbent newcomer : List Callable) : List String :=
  distinctNames ((incumbent ++ newcomer).map (·.name))

/-- One entity out of two of the same name, with the conflicts between them. -/
def unify (incumbent newcomer : Entity) (origin : Origin) : Entity × List Conflict :=
  let names := unifiedNames incumbent.callables newcomer.callables
  (⟨incumbent.name, names.filterMap (chosen? incumbent.callables newcomer.callables), origin⟩,
    names.filterMap (conflict? incumbent.name incumbent.callables newcomer.callables))

/-- Adds an entity to those merged so far: in place of the one of its name, unified with it, or
at the end. The origin of a unified entity is computed from the incumbent's. -/
def absorb (origin : Origin → Origin) (newcomer : Entity) :
    List Entity → List Entity × List Conflict
  | [] => ([newcomer], [])
  | incumbent :: rest =>
    if incumbent.name = newcomer.name then
      let (entity, conflicts) := unify incumbent newcomer (origin incumbent.origin)
      (entity :: rest, conflicts)
    else
      let (entities, conflicts) := absorb origin newcomer rest
      (incumbent :: entities, conflicts)

def absorbAll (origin : Origin → Origin) (merged : List Entity) :
    List Entity → List Entity × List Conflict
  | [] => (merged, [])
  | newcomer :: rest =>
    let (merged, conflicts) := absorb origin newcomer merged
    let (merged, later) := absorbAll origin merged rest
    (merged, conflicts ++ later)

/-- The entities of both lists, each name once and in the order of its first occurrence, with
the conflicts in the order in which they arise. -/
def merge (first second : List Entity) : List Entity × List Conflict :=
  let (merged, conflicts) := absorbAll id [] first
  let (merged, later) := absorbAll (fun _ => .unified) merged second
  (merged, conflicts ++ later)

def Conflict.message (conflict : Conflict) : String :=
  conflict.entity ++ "." ++ conflict.callable ++ " differs between platforms; using "
    ++ conflict.kept.describe ++ " over " ++ conflict.dropped.describe

end DartBindings.Bridge
