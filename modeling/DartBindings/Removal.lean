import DartBindings.Bridge.Entity
import DartBindings.Regex.Matching
import DartBindings.Regex.Reader

/-!
Removals: what is kept out of a library. A removal names an entity, or a member by the entity's
name, a full stop and its own, literally or by a pattern that matches the whole of it.

Removals are tried in order and a text is read as a pattern only when it is tried, so one that
is no pattern does no harm behind a removal that applies.
-/

set_option autoImplicit false

namespace DartBindings

open Bridge Regex

inductive Removal where
  | named (text : String)
  | matching (text : String)
  deriving DecidableEq, Repr

variable [CharacterNames]

def Removal.applies (name : String) : Removal → Except InvalidPattern Bool
  | .named text => .ok (text == name)
  | .matching text => (Pattern.ofString text).map fun pattern => pattern.matchesAll name.toList

def isRemoved (removals : List Removal) (name : String) : Except InvalidPattern Bool :=
  match removals with
  | [] => .ok false
  | removal :: rest => do
    if ← removal.applies name then return true
    isRemoved rest name

def keptCallables (removals : List Removal) (entity : String) :
    List Callable → Except InvalidPattern (List Callable)
  | [] => .ok []
  | callable :: rest => do
    let removed ← isRemoved removals (entity ++ "." ++ callable.name)
    let later ← keptCallables removals entity rest
    return if removed then later else callable :: later

/-- The entities that stay, with the members that stay. Without removals all do; otherwise an
entity needs a member to stay. -/
def keptEntities (removals : List Removal) : List Entity → Except InvalidPattern (List Entity)
  | [] => .ok []
  | entity :: rest => do
    if ← isRemoved removals entity.name then keptEntities removals rest
    else
      let callables ← keptCallables removals entity.name entity.callables
      let later ← keptEntities removals rest
      return if callables.isEmpty then later else { entity with callables } :: later

/-- The entities without what the removals apply to. -/
def removeFrom (removals : List Removal) (entities : List Entity) :
    Except InvalidPattern (List Entity) :=
  if removals.isEmpty then .ok entities else keptEntities removals entities

end DartBindings
