import DartBindings.Regex.Branches
import DartBindings.Regex.CharSet
import DartBindings.Regex.Groups

/-!
Reading a pattern sign by sign.

A group holds branches, a branch holds items. A repetition applies to the last item of its
branch; there has to be one, and it must not be an assertion or a repetition itself. Flags of the
whole pattern stand at its very start.
-/

set_option autoImplicit false

namespace DartBindings.Regex

open Text

/-! ## Groups that are being read -/

/-- An item of a branch. -/
inductive Item where
  | one (pattern : Pattern)
  /-- A group without a number and without flags: its items are items of the branch, unless it is
  repeated. -/
  | several (patterns : List Pattern)

def Item.patterns : Item → List Pattern
  | .one pattern => [pattern]
  | .several patterns => patterns

/-- A group that is being read, or the whole pattern: where it starts, whether blanks are left out
in it, its finished branches and the items of the last one, both the latest first. -/
structure Frame where
  kind : GroupKind
  position : Nat
  verbose : Bool
  branches : List (List Pattern)
  items : List Item

def Frame.start (kind : GroupKind) (position : Nat) (verbose : Bool) : Frame :=
  ⟨kind, position, verbose, [], []⟩

def Frame.isFresh (frame : Frame) : Bool :=
  frame.branches.isEmpty && frame.items.isEmpty

def Frame.push (frame : Frame) (item : Item) : Frame :=
  { frame with items := item :: frame.items }

def Frame.branch (frame : Frame) : List Pattern :=
  frame.items.reverse.flatMap Item.patterns

/-- All branches, in order. -/
def Frame.allBranches (frame : Frame) : List (List Pattern) :=
  (frame.branch :: frame.branches).reverse

/-- Ends the branch. -/
def Frame.bar (frame : Frame) : Frame :=
  { frame with branches := frame.branch :: frame.branches, items := [] }

/-- The items of the group. -/
def Frame.contents (frame : Frame) : List Pattern :=
  itemsOfBranches frame.allBranches

def Frame.body (frame : Frame) : Pattern :=
  .sequenceOf frame.contents

/-- The item that the group is in the branch around it. -/
def Frame.item (frame : Frame) : Item :=
  match frame.kind with
  | .capture number => .one (.group (some number) [] [] frame.body)
  | .scoped [] [] => .several frame.contents
  | .scoped on off => .one (.group none on off frame.body)
  | .atomic => .one (.atomic frame.body)
  | .look behind negated _ => .one (.look behind negated frame.body)
  | .conditional group =>
    let branches := frame.allBranches.map .sequenceOf
    .one (.conditional group (branches.head?.getD .empty) (branches[1]?.getD .empty))

/-- What is known of the groups behind this one. -/
def Frame.groupsAfter (frame : Frame) (groups : Groups) : Groups :=
  match frame.kind with
  | .capture number => groups.closed number frame.body.width
  | .look _ _ limit => { groups with limit }
  | _ => groups

/-- Whether blanks are left out in a group of this kind, if they are left out around it. -/
def GroupKind.verbose (kind : GroupKind) (around : Bool) : Bool :=
  match kind with
  | .scoped on off => (around || on.contains .verbose) && !off.contains .verbose
  | _ => around

/-! ## Repetitions -/

/-- What forbids to repeat the last item of the branch. -/
def Frame.unrepeatable? (frame : Frame) : Option Flaw :=
  match frame.items with
  | [] | .one (.assertion _) :: _ => some .nothingToRepeat
  | .one (.repeated ..) :: _ => some .repeatedTwice
  | _ => none

/-- Lets the last item of the branch be repeated. -/
def Frame.repeated (frame : Frame) (least : Nat) (most : Option Nat) (mode : Mode) : Frame :=
  match frame.items with
  | [] => frame
  | item :: items =>
    { frame with items }.push (.one (.repeated (.sequenceOf item.patterns) least most mode))

/-- The mode of a repetition, from what follows it. -/
def modeAt : List Sign → Mode × Nat
  | .plain '?' :: _ => (.reluctant, 1)
  | .plain '+' :: _ => (.possessive, 1)
  | _ => (.greedy, 0)

/-- Counts are less. -/
def countLimit : Nat := 4294967295

/-- A count of a repetition, if it is stated. -/
def count? (digits : List Char) (input : Input) : Reading (Option Nat) :=
  if digitLimit < digits.length then input.refuseWhole (.longCount digits.length)
  else
    match numeral? 10 digits with
    | none => .ok none
    | some count => if countLimit ≤ count then input.refuseWhole .hugeCount else .ok (some count)

/-- The counts of a repetition in braces, after the opening one; none if the brace opens no
repetition. -/
def countsAt (input : Input) : Reading (Option (Nat × Option Nat) × Nat) := do
  let low := plainRun Char.isDigit input.rest
  let isRange := input.rest[low.length]? == some (.plain ',')
  let high := if isRange then plainRun Char.isDigit (input.rest.drop (low.length + 1)) else low
  let length := low.length + (if isRange then 1 + high.length else 0)
  if input.rest.head? == some (.plain '\x7d') || input.rest[length]? != some (.plain '\x7d') then
    return (none, 0)
  let after := input.skip (length + 1)
  let least ← count? low after
  let most ← count? high after
  if most.any (· < least.getD 0) then after.refuseAt input.position .reversedCounts
  return (some (least.getD 0, most), length + 1)

/-! ## Steps -/

/-- What has been read of a pattern: the groups around the current one, the inmost first, the
current one, the flags of the whole pattern, and what is known of the groups. -/
structure Machine where
  outer : List Frame
  frame : Frame
  flags : Flags
  groups : Groups

def Machine.start : Machine :=
  ⟨[], .start (.scoped [] []) 0 false, [], .start⟩

def Machine.push (machine : Machine) (pattern : Pattern) : Machine :=
  { machine with frame := machine.frame.push (.one pattern) }

/-- Two flags for the type of characters cannot both hold for the whole pattern. -/
def Machine.agree (machine : Machine) (input : Input) : Reading Unit :=
  if machine.flags.contains .ascii && machine.flags.contains .unicode then
    input.refuseWhole .clashingTypes
  else .ok ()

/-- A repetition after the last item, which starts at `start` and whose mode may follow. -/
def Machine.repeated (machine : Machine) (start least : Nat) (most : Option Nat)
    (input : Input) : Reading (Machine × Nat) :=
  match machine.frame.unrepeatable? with
  | some flaw => input.refuseAt start flaw
  | none =>
    let (mode, n) := modeAt input.rest
    .ok ({ machine with frame := machine.frame.repeated least most mode }, n)

/-- Starts a group, or what else starts with a parenthesis at `start`. -/
def Machine.opened (machine : Machine) (start : Nat) (opening : Opening) (input : Input) :
    Reading Machine :=
  let machine := { machine with groups := opening.groups }
  let verbose := machine.frame.verbose
  match opening.start with
  | .comment => .ok machine
  | .item pattern => .ok (machine.push pattern)
  | .flags on =>
    if machine.outer.isEmpty && machine.frame.isFresh then
      let flags := machine.flags ++ on
      .ok { machine with flags, frame := { machine.frame with verbose := flags.contains .verbose } }
    else input.refuseAt start .lateFlags
  | .group kind =>
    .ok { machine with
      outer := machine.frame :: machine.outer
      frame := .start kind start (kind.verbose verbose) }

/-- Ends a group, whose closing parenthesis is next. -/
def Machine.closed (machine : Machine) (input : Input) : Reading Machine :=
  match machine.outer with
  | [] => do
    machine.agree input
    input.refuse .strayParenthesis
  | around :: outer =>
    .ok { machine with
      outer
      frame := around.push machine.frame.item
      groups := machine.frame.groupsAfter machine.groups }

/-- Ends a branch, whose bar is next. A condition has two branches at most. -/
def Machine.bar (machine : Machine) (input : Input) : Reading Machine :=
  match machine.frame.kind, machine.frame.branches with
  | .conditional _, _ :: _ => input.refuse .thirdBranch
  | _, _ => .ok { machine with frame := machine.frame.bar }

/-- The pattern that an escape stands for, which starts at `start`. -/
def Groups.escaped (groups : Groups) (start : Nat) (input : Input) : Escape → Reading Pattern
  | .char code => .ok (.single (.char false code))
  | .category kind negated => .ok (.single (.set false [.category kind negated]))
  | .assertion assertion => .ok (.assertion assertion)
  | .reference number =>
    if groups.next ≤ number then input.refuseAt (start + 1) (.noGroup number)
    else groups.reference number start input

section Names

variable [CharacterNames]

/-- Reads the sign that is next, and what belongs to it. -/
def Machine.step (machine : Machine) (sign : Sign) (input : Input) : Reading (Machine × Nat) :=
  let start := input.position
  let after := input.skip 1
  match sign with
  | .dangling => after.refuseAt start .danglingEscape
  | .escaped c => do
    let (escape, n) ← escapeOf false start c after
    let pattern ← machine.groups.escaped start (after.skip n) escape
    return (machine.push pattern, n)
  | .plain c =>
    if c = '|' then (machine.bar input).map (·, 0)
    else if c = ')' then (machine.closed input).map (·, 0)
    else if machine.frame.verbose && isAsciiBlank c then .ok (machine, 0)
    else if machine.frame.verbose && c = '#' then
      .ok (machine, (after.rest.takeWhile (· != .plain '\n')).length + 1)
    else
      match c with
      | '.' => .ok (machine.push (.single .any), 0)
      | '^' => .ok (machine.push (.assertion .start), 0)
      | '$' => .ok (machine.push (.assertion .stop), 0)
      | '[' => do
        let (test, n) ← setTest start after
        return (machine.push (.single test), n)
      | '(' => do
        let opening ← openingAt machine.groups start after
        let machine ← machine.opened start opening (after.skip opening.length)
        return (machine, opening.length)
      | '*' => machine.repeated start 0 none after
      | '+' => machine.repeated start 1 none after
      | '?' => machine.repeated start 0 (some 1) after
      | '\x7b' => do
        let (counts, n) ← countsAt after
        match counts with
        | none => return (machine.push (.single (.char false c.toNat)), n)
        | some (least, most) =>
          let (machine, k) ← machine.repeated start least most (after.skip n)
          return (machine, n + k)
      | _ => .ok (machine.push (.single (.char false c.toNat)), 0)

/-- Reads all that is left. -/
def Machine.run (machine : Machine) (input : Input) : Reading Machine :=
  match _shape : input.rest with
  | [] => .ok machine
  | sign :: _ => do
    let (machine, n) ← machine.step sign input
    machine.run (input.skip (n + 1))
termination_by input.rest.length
decreasing_by
  simp only [Input.skip, List.length_drop, _shape, List.length_cons]
  omega

end Names

/-! ## The whole pattern -/

def Mode.text : Mode → String
  | .greedy => "MAX_REPEAT"
  | .reluctant => "MIN_REPEAT"
  | .possessive => "POSSESSIVE_REPEAT"

/-- The farthest that a look-behind looks. -/
def farthest : Nat := 4294967295

/-- What is wrong with the first look-behind or, in a template, repetition. -/
def Pattern.flaw? (template : Bool) : Pattern → Option Flaw
  | .empty | .single _ | .assertion _ | .reference .. => none
  | .sequence first second | .choice first second | .conditional _ first second =>
    (first.flaw? template).orElse fun _ => second.flaw? template
  | .repeated body _ _ mode =>
    if template then some (.templateRepeat mode.text) else body.flaw? template
  | .group _ _ _ body | .atomic body => body.flaw? template
  | .look behind _ body =>
    if behind && farthest < body.width.least then some .longLookBehind
    else if behind && body.width.least != body.width.most then some .unsteadyLookBehind
    else body.flaw? template

/-- The pattern when all has been read: no group is open, and all that are referred to exist. -/
def Machine.finish (machine : Machine) : Reading Pattern := do
  let refuse {α : Type} (position : Option Nat) (flaw : Flaw) : Reading α :=
    .error ⟨flaw, position, 0⟩
  if !machine.outer.isEmpty then refuse (some machine.frame.position) .unclosedGroup
  machine.agree ⟨0, []⟩
  match machine.groups.conditions.find? fun condition => machine.groups.next ≤ condition.1 with
  | some (number, position) => refuse (some position) (.noGroup number)
  | none =>
    match machine.frame.body.flaw? (machine.flags.contains .template) with
    | some flaw => refuse none flaw
    | none => return .group none machine.flags [] machine.frame.body

/-- The pattern that signs spell. -/
def readPattern [CharacterNames] (text : List Sign) : Reading Pattern := do
  let machine ← Machine.start.run ⟨0, text⟩
  machine.finish

/-- The pattern that a text denotes, if it denotes one. A backslash without a partner counts as
soon as what stands before it is read. -/
def Pattern.ofString [CharacterNames] (text : String) : Except InvalidPattern Pattern :=
  let signs := signs text.toList
  let reading := readPattern signs
  if signs.getLast? == some .dangling then
    match reading with
    | .error ⟨flaw, position, _ + 2⟩ => .error ⟨text, flaw, position⟩
    | _ => .error ⟨text, .danglingEscape, some (text.length - 1)⟩
  else reading.mapError fun refusal => ⟨text, refusal.flaw, refusal.position⟩

end DartBindings.Regex
