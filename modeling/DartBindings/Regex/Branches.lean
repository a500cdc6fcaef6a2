import DartBindings.Regex.Syntax

/-!
Branches of a group. Items with which all branches start stand before the choice; and if each
branch is then a single character or a set, the branches together are one set, whose members
match as the members of a set in brackets do.
-/

set_option autoImplicit false

namespace DartBindings.Regex

/-- The pattern is a condition on one character or position, or stands for a group. -/
def Pattern.isPlain : Pattern → Bool
  | .single _ | .assertion _ | .reference .. => true
  | _ => false

/-- The plain patterns with which all branches start, and the branches without them. -/
def commonStart (first : List Pattern) (others : List (List Pattern)) :
    List Pattern × List Pattern × List (List Pattern) :=
  match first with
  | [] => ([], [], others)
  | item :: rest =>
    if item.isPlain && others.all (·.head? == some item) then
      let (start, first, others) := commonStart rest (others.map (·.drop 1))
      (item :: start, first, others)
    else ([], item :: rest, others)

/-- The members that a branch adds to a set, if the branch is a single character or a set that
lists what it holds. -/
def setOfBranch : List Pattern → Option (List SetItem)
  | [.single (.char false code)] => some [.char code]
  | [.single (.set false items)] => some items
  | _ => none

/-- The set that the branches are together. -/
def setOfBranches (branches : List (List Pattern)) : Option Pattern := do
  let sets ← branches.mapM setOfBranch
  return .single (.set false sets.flatten.eraseDups)

/-- The items of a group with these branches. -/
def itemsOfBranches : List (List Pattern) → List Pattern
  | [] => []
  | [branch] => branch
  | branch :: others =>
    let (start, first, others) := commonStart branch others
    let choice := (setOfBranches (first :: others)).getD
      (.choiceOf ((first :: others).map .sequenceOf))
    start ++ [choice]

end DartBindings.Regex
