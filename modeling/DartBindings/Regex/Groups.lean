import DartBindings.Regex.Escape
import DartBindings.Text.Identifier

/-!
Groups: what is known of the groups of a pattern while it is read, and what the start of a group
says it is for.
-/

set_option autoImplicit false

namespace DartBindings.Regex

open Text

/-! ## Known groups -/

/-- What is known of the groups of a pattern. Their numbers start with one. -/
structure Groups where
  names : List (String × Nat)
  /-- The widths of the groups that are closed; an open group has none yet. -/
  widths : List (Option Width)
  /-- Inside of a look-behind, the number of the first group that is not before it. -/
  limit : Option Nat
  /-- The groups that conditions name by a number, and where. -/
  conditions : List (Nat × Nat)

def Groups.start : Groups := ⟨[], [], none, []⟩

/-- The number of the next group to be opened. -/
def Groups.next (groups : Groups) : Nat := groups.widths.length + 1

/-- The width of a group that is closed. -/
def Groups.width? (groups : Groups) (number : Nat) : Option Width :=
  groups.widths[number - 1]?.join

def Groups.opened (groups : Groups) (name : Option String) : Groups :=
  { groups with
    names := (name.map fun name => (name, groups.next)).toList ++ groups.names
    widths := groups.widths ++ [none] }

def Groups.closed (groups : Groups) (number : Nat) (width : Width) : Groups :=
  { groups with widths := groups.widths.set (number - 1) (some width) }

/-- A look-behind refers to no group that is open or opened inside of it. -/
def Groups.allow (groups : Groups) (number : Nat) (input : Input) : Reading Unit :=
  match groups.limit with
  | none => .ok ()
  | some limit =>
    if (groups.width? number).isNone then input.refuse .openGroup
    else if limit ≤ number then input.refuse .groupInLookBehind
    else .ok ()

/-- What refers to a group that exists, from `start` on. -/
def Groups.reference (groups : Groups) (number start : Nat) (input : Input) : Reading Pattern :=
  match groups.width? number with
  | none => input.refuseAt start .openGroup
  | some width => do
    groups.allow number input
    return .reference number width

/-! ## Names -/

/-- The name of a group, up to its terminator. -/
def groupName (terminator : Char) (input : Input) : Reading (String × Nat) := do
  let (name, n) ← nameUntil terminator "group name" input
  if isIdentifier name then return (String.ofList name, n)
  (input.skip n).refuseAt input.position (.badGroupName (String.ofList name))

/-- Groups have lower numbers. -/
def groupLimit : Nat := 1073741823

/-- The group that a condition names, by its name or its number, and what is known of the groups
then. -/
def conditionGroup (groups : Groups) (input : Input) : Reading (Nat × Groups × Nat) := do
  let (name, n) ← nameUntil ')' "group name" input
  let after := input.skip n
  let refuse {α : Type} (flaw : Flaw) : Reading α := after.refuseAt input.position flaw
  if isIdentifier name then
    match groups.names.lookup (String.ofList name) with
    | none => refuse (.unknownGroupName (String.ofList name))
    | some number =>
      groups.allow number after
      return (number, groups, n)
  else
    match integer? name with
    | some (.ofNat number) =>
      if number = 0 then refuse .groupZero
      else if groupLimit ≤ number then refuse (.noGroup number)
      else
        groups.allow number after
        let conditions := groups.conditions ++ [(number, input.position)]
        return (number, { groups with conditions }, n)
    | _ => refuse (.badGroupName (String.ofList name))

/-! ## Flags -/

def flagOf? : Char → Option Flag
  | 'i' => some .ignoreCase
  | 'L' => some .locale
  | 'm' => some .multiline
  | 's' => some .dotAll
  | 'x' => some .verbose
  | 'a' => some .ascii
  | 't' => some .template
  | 'u' => some .unicode
  | _ => none

def Sign.flag? : Sign → Option Flag
  | .plain c => flagOf? c
  | _ => none

def Sign.isLetter : Sign → Bool
  | .plain c => Text.isLetter c
  | _ => false

/-- Neither a flag nor what may stand among flags: `expected` says what may. -/
def refuseFlag {α : Type} (expected : String) (input : Input) : Reading α :=
  match input.rest with
  | [] => input.refuse (.missing expected)
  | sign :: _ =>
    (input.skip 1).refuseAt input.position
      (if sign.isLetter then .unknownFlag else .missing expected)

/-- The flags that are turned on from `flag` on, and the sign that ends them. -/
def turnedOn (on : Flags) (flag : Flag) (position : Nat) (rest : List Sign) :
    Reading (Flags × Char × Nat) :=
  let input : Input := ⟨position, rest⟩
  if flag = .locale then input.refuse .localeFlag
  else if flag.isType && on.any fun other => other.isType && other != flag then
    input.refuse .mixedTypes
  else
    match rest with
    | .plain ')' :: _ => .ok (flag :: on, ')', 1)
    | .plain '-' :: _ => .ok (flag :: on, '-', 1)
    | .plain ':' :: _ => .ok (flag :: on, ':', 1)
    | .plain c :: rest =>
      match flagOf? c with
      | some next => do
        let (on, mark, n) ← turnedOn (flag :: on) next (position + 1) rest
        return (on, mark, n + 1)
      | none => refuseFlag "-, : or )" input
    | _ => refuseFlag "-, : or )" input

/-- The flags that are turned off from `flag` on, up to a colon. -/
def turnedOff (off : Flags) (flag : Flag) (position : Nat) (rest : List Sign) :
    Reading (Flags × Nat) :=
  let input : Input := ⟨position, rest⟩
  if flag.isType then input.refuse .typeTurnedOff
  else
    match rest with
    | .plain ':' :: _ => .ok (flag :: off, 1)
    | .plain c :: rest =>
      match flagOf? c with
      | some next => do
        let (off, n) ← turnedOff (flag :: off) next (position + 1) rest
        return (off, n + 1)
      | none => refuseFlag ":" input
    | _ => refuseFlag ":" input

/-- The flags that are turned off after a dash, up to a colon. -/
def flagsOff (input : Input) : Reading (Flags × Nat) :=
  match input.rest with
  | sign :: rest =>
    match sign.flag? with
    | some flag => do
      let (off, n) ← turnedOff [] flag (input.position + 1) rest
      return (off, n + 1)
    | none => refuseFlag "flag" input
  | [] => refuseFlag "flag" input

/-- Flags of a group cannot be those of a whole pattern, and are not turned on and off at once. -/
def groupFlags (on off : Flags) (input : Input) : Reading Unit :=
  let last := input.position - 1
  if off.any Flag.isGlobal then input.refuseAt last .globalTurnedOff
  else if on.any off.contains then input.refuseAt last .contradictoryFlags
  else .ok ()

/-! ## The start of a group -/

/-- What a group is for. -/
inductive GroupKind where
  /-- It has a number. -/
  | capture (number : Nat)
  /-- Its flags count in it, if it has any; it has no number. -/
  | scoped (on off : Flags)
  | atomic
  /-- `limit` holds around a look-behind. -/
  | look (behind negated : Bool) (limit : Option Nat)
  | conditional (group : Nat)
  deriving DecidableEq, Repr

/-- What starts with a parenthesis. -/
inductive Start where
  /-- A group, whose branches follow. -/
  | group (kind : GroupKind)
  | item (pattern : Pattern)
  /-- Flags of the whole pattern. -/
  | flags (on : Flags)
  | comment

/-- What starts with a parenthesis, what is known of the groups then, and how much of the text
says so. -/
structure Opening where
  start : Start
  groups : Groups
  length : Nat

/-- A group with a number, and maybe a name. -/
def Groups.capture (groups : Groups) (name : Option String) (length : Nat) : Opening :=
  ⟨.group (.capture groups.next), groups.opened name, length⟩

/-- A condition on what stands behind refers to the groups before it only. -/
def Groups.look (groups : Groups) (behind negated : Bool) (length : Nat) : Opening :=
  let limit := if behind then groups.limit.orElse fun _ => some groups.next else groups.limit
  ⟨.group (.look behind negated groups.limit), { groups with limit }, length⟩

/-- A group that says more after a `P`: it has a name, or stands for the group of that name. -/
def namedOpening (groups : Groups) (question : Nat) (input : Input) : Reading Opening :=
  match input.rest with
  | [] => input.refuse .endOfText
  | .plain '<' :: _ => do
    let start := input.skip 1
    let (name, n) ← groupName '>' start
    match groups.names.lookup name with
    | none => return groups.capture (some name) (n + 1)
    | some other =>
      (start.skip n).refuseAt start.position (.sameGroupName name groups.next other)
  | .plain '=' :: _ => do
    let start := input.skip 1
    let (name, n) ← groupName ')' start
    match groups.names.lookup name with
    | none => (start.skip n).refuseAt start.position (.unknownGroupName name)
    | some number =>
      let pattern ← groups.reference number start.position (start.skip n)
      return ⟨.item pattern, groups, n + 1⟩
  | sign :: _ =>
    (input.skip 1).refuseAt question (.unknownExtension ("?P" ++ String.ofList sign.text))

/-- Flags after the question mark of a group, from the first one or from a dash on. Those of the
whole pattern are followed by nothing. -/
def flagOpening (groups : Groups) (first : Option Flag) (input : Input) : Reading Opening := do
  let (on, mark, n) ←
    match first with
    | some flag => turnedOn [] flag input.position input.rest
    | none => pure ([], '-', 0)
  let after := input.skip n
  if mark = ')' then return ⟨.flags on, groups, n⟩
  if on.any Flag.isGlobal then after.refuseAt (after.position - 1) .globalTurnedOn
  let (off, k) ← if mark = '-' then flagsOff after else pure ([], 0)
  groupFlags on off (after.skip k)
  return ⟨.group (.scoped on off), groups, n + k⟩

/-- What the question mark of a group is followed by. The group starts at `start`. -/
def extensionOpening (groups : Groups) (start : Nat) (input : Input) : Reading Opening :=
  let question := start + 1
  let unknown (extension : List Char) (n : Nat) : Reading Opening :=
    (input.skip n).refuseAt question (.unknownExtension (String.ofList ('?' :: extension)))
  let further (n : Nat) (opening : Opening) : Opening :=
    { opening with length := n + opening.length }
  match input.rest with
  | [] => input.refuse .endOfText
  | .plain 'P' :: _ => (namedOpening groups question (input.skip 1)).map (further 1)
  | .plain ':' :: _ => .ok ⟨.group (.scoped [] []), groups, 1⟩
  | .plain '#' :: rest =>
    let comment := rest.takeWhile (· != .plain ')')
    if comment.length < rest.length then .ok ⟨.comment, groups, comment.length + 2⟩
    else (input.skip (comment.length + 1)).refuseAt start .unclosedComment
  | .plain '=' :: _ => .ok (groups.look false false 1)
  | .plain '!' :: _ => .ok (groups.look false true 1)
  | .plain '<' :: .plain '=' :: _ => .ok (groups.look true false 2)
  | .plain '<' :: .plain '!' :: _ => .ok (groups.look true true 2)
  | [.plain '<'] => (input.skip 1).refuse .endOfText
  | .plain '<' :: sign :: _ => unknown ('<' :: sign.text) 2
  | .plain '(' :: _ => do
    let (number, groups, n) ← conditionGroup groups (input.skip 1)
    return ⟨.group (.conditional number), groups, n + 1⟩
  | .plain '>' :: _ => .ok ⟨.group .atomic, groups, 1⟩
  | .plain '-' :: _ => (flagOpening groups none (input.skip 1)).map (further 1)
  | sign :: _ =>
    match sign.flag? with
    | some flag => (flagOpening groups (some flag) (input.skip 1)).map (further 1)
    | none => unknown sign.text 1

/-- What a parenthesis at `start` opens. -/
def openingAt (groups : Groups) (start : Nat) (input : Input) : Reading Opening :=
  match input.rest with
  | .plain '?' :: _ => do
    let opening ← extensionOpening groups start (input.skip 1)
    return { opening with length := opening.length + 1 }
  | _ => .ok (groups.capture none 0)

end DartBindings.Regex
