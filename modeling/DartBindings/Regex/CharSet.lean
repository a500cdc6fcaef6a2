import DartBindings.Regex.Escape

/-!
Sets in brackets: characters, ranges and categories, or all characters but these.
-/

set_option autoImplicit false

namespace DartBindings.Regex

/-- The test of a set in brackets; a set of one character is that character. -/
def CharTest.ofItems (negated : Bool) (items : List SetItem) : CharTest :=
  match items.eraseDups with
  | [.char code] => .char negated code
  | items => .set negated items

/-- The range between two members, which have to be characters in ascending order. -/
def rangeOf : SetItem → SetItem → Option SetItem
  | .char first, .char last => if first ≤ last then some (.range first last) else none
  | _, _ => none

section Names

variable [CharacterNames]

/-- A member of a set without its range, which starts at `start`. -/
def setMember (start : Nat) (sign : Sign) (input : Input) : Reading (SetItem × Nat) :=
  match sign with
  | .plain c => .ok (.char c.toNat, 0)
  | .dangling => input.refuseAt start .danglingEscape
  | .escaped c => do
    match ← escapeOf true start c input with
    | (.char code, n) => return (.char code, n)
    | (.category kind negated, n) => return (.category kind negated, n)
    | (.assertion _, n) | (.reference _, n) =>
      (input.skip n).refuseAt start (.badEscape (escapeText c []))

/-- The members of a set up to its closing bracket. A closing bracket that comes first is a
member; a dash is one where no range can be. The set starts at `start`. -/
def setItems (start : Nat) (isFirst : Bool) (input : Input) : Reading (List SetItem × Nat) :=
  match _shape : input.rest with
  | [] => input.refuseAt start .unclosedSet
  | sign :: rest =>
    if sign == .plain ']' && !isFirst then .ok ([], 1)
    else do
      let (member, n) ← setMember input.position sign (input.skip 1)
      match rest[n]?, rest[n + 1]? with
      | some (.plain '-'), none => (input.skip (n + 2)).refuseAt start .unclosedSet
      | some (.plain '-'), some (.plain ']') => return ([member, .char '-'.toNat], n + 3)
      | some (.plain '-'), some last =>
        let (lastMember, k) ← setMember (input.skip (n + 2)).position last (input.skip (n + 3))
        let after := input.skip (n + 3 + k)
        match rangeOf member lastMember with
        | none =>
          after.refuseAt (after.position - (sign.text.length + 1 + last.text.length))
            (.badRange (String.ofList sign.text) (String.ofList last.text))
        | some range =>
          let (items, m) ← setItems start false after
          return (range :: items, n + 3 + k + m)
      | _, _ =>
        let (items, m) ← setItems start false (input.skip (n + 1))
        return (member :: items, n + 1 + m)
termination_by input.rest.length
decreasing_by all_goals
  simp only [Input.skip, List.length_drop, _shape, List.length_cons]
  omega

/-- A set after its opening bracket, which stands at `start`. -/
def setTest (start : Nat) (input : Input) : Reading (CharTest × Nat) :=
  match input.rest with
  | .plain '^' :: _ => do
    let (items, n) ← setItems start true (input.skip 1)
    return (.ofItems true items, n + 1)
  | _ => do
    let (items, n) ← setItems start true input
    return (.ofItems false items, n)

end Names

end DartBindings.Regex
