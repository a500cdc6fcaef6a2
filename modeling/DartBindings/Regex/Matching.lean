import DartBindings.Regex.Membership

/-!
Matching: a pattern matches the whole text if, with its choices tried in their order, it comes
from the start of the text to its end.

A matcher goes on with what comes after its pattern, and turns back to its next choice where that
fails. Groups leave marks where they start and where they end. What is tried in vain takes back
the marks that it has set first; the earlier ones that it has moved are put back only inside of a
repetition, and otherwise stay moved, for references and conditions to see.
-/

set_option autoImplicit false

namespace DartBindings.Regex

/-! ## Marks -/

/-- Where groups start and end, as far as they have: the start of the first group, its end, the
start of the second one, and so on up to the last mark that is set. -/
abbrev Marks := List (Option Nat)

def Marks.put (marks : Marks) (index pos : Nat) : Marks :=
  (marks ++ List.replicate (index + 1 - marks.length) none).set index (some pos)

/-- What a group has matched last: where it starts and where it ends. -/
def Marks.span? (marks : Marks) (group : Nat) : Option (Nat × Nat) :=
  match marks[2 * group - 2]?, marks[2 * group - 1]? with
  | some (some start), some (some stop) => if start ≤ stop then some (start, stop) else none
  | _, _ => none

/-- The marks to go on with, where there were `before` and what was tried left `after`. -/
def Marks.takenBack (inRepetition : Bool) (before after : Marks) : Marks :=
  if inRepetition then before else after.take before.length

/-! ## Matchers -/

/-- A position in a text. -/
abbrev Position (text : List Char) := Fin (text.length + 1)

/-- Where a match ends, if there is one, and the marks that are left. -/
structure Outcome (text : List Char) where
  stop? : Option (Position text)
  marks : Marks

/-- What comes after a pattern. -/
abbrev Continuation (text : List Char) := Position text → Marks → Outcome text

abbrev Matcher (text : List Char) := Position text → Marks → Continuation text → Outcome text

section Matcher

variable {text : List Char}

def Outcome.failed (marks : Marks) : Outcome text := ⟨none, marks⟩

/-- Nothing comes after the pattern. -/
def matched : Continuation text := fun pos marks => ⟨some pos, marks⟩

/-- The position `n` characters on, if the text goes so far. -/
def forward? (pos : Position text) (n : Nat) : Option (Position text) :=
  if inside : pos.val + n < text.length + 1 then some ⟨pos.val + n, inside⟩ else none

/-- The position `n` characters back. -/
def back? (pos : Position text) (n : Nat) : Option (Position text) :=
  if n ≤ pos.val then some ⟨pos.val - n, Nat.lt_of_le_of_lt (Nat.sub_le _ _) pos.isLt⟩ else none

/-- Goes on behind the next `n` characters, if there are so many. -/
def Continuation.after (next : Continuation text) (n : Nat) (pos : Position text)
    (marks : Marks) : Outcome text :=
  match forward? pos n with
  | some stop => next stop marks
  | none => .failed marks

/-- The first of several attempts that succeeds. -/
def firstOf (inRepetition : Bool) (marks : Marks) : List (Marks → Outcome text) → Outcome text
  | [] => .failed marks
  | attempt :: rest =>
    let outcome := attempt marks
    if outcome.stop?.isSome then outcome
    else firstOf inRepetition (marks.takenBack inRepetition outcome.marks) rest

/-! ## Repetitions -/

/-- One copy less to go. -/
def less (spare : Option Nat) : Option Nat := spare.map (· - 1)

/-- Copies of a body that is one character. -/
def repeatedTest (test : Char → Bool) (inRepetition : Bool) (least : Nat) (most : Option Nat)
    (mode : Mode) : Matcher text := fun pos marks next =>
  let run := ((text.drop pos).takeWhile test).length
  let reach := (most.map (min run)).getD run
  let attempts := (List.range' least (reach + 1 - least)).map fun count => next.after count pos
  match mode with
  | .greedy => firstOf inRepetition marks attempts.reverse
  | .reluctant => firstOf inRepetition marks attempts
  | .possessive => if least ≤ reach then next.after reach pos marks else .failed marks

/-- The copies of a body that are due, and what comes after them. -/
def dueCopies (body : Matcher text) (next : Continuation text) : Nat → Continuation text
  | 0 => next
  | due + 1 => fun pos marks => body pos marks (dueCopies body next due)

/-- As many copies as there can be, and fewer ones after these. A copy that takes nothing is the
last. -/
def manyCopies (body : Matcher text) (next : Continuation text) (spare : Option Nat)
    (pos : Position text) (marks : Marks) : Outcome text :=
  if spare = some 0 then next pos marks
  else
    let outcome := body pos marks fun stop marks =>
      if _later : pos.val < stop.val then manyCopies body next (less spare) stop marks
      else next stop marks
    if outcome.stop?.isSome then outcome else next pos marks
termination_by text.length - pos.val
decreasing_by omega

/-- As few copies as there can be, and more of them after these. -/
def fewCopies (body : Matcher text) (inRepetition : Bool) (next : Continuation text)
    (spare : Option Nat) (pos : Position text) (marks : Marks) : Outcome text :=
  let outcome := next pos marks
  if outcome.stop?.isSome then outcome
  else
    let marks := marks.takenBack inRepetition outcome.marks
    if spare = some 0 then .failed marks
    else
      body pos marks fun stop marks =>
        if _later : pos.val < stop.val then fewCopies body inRepetition next (less spare) stop marks
        else firstOf inRepetition marks [next stop]
termination_by text.length - pos.val
decreasing_by omega

/-- The copies that are due, each one kept as it matches first. -/
def keptDueCopies (body : Matcher text) : Nat → Continuation text
  | 0, pos, marks => matched pos marks
  | due + 1, pos, marks =>
    let outcome := body pos marks matched
    match outcome.stop? with
    | some stop => keptDueCopies body due stop outcome.marks
    | none => outcome

/-- As many copies as there are, each one kept as it matches first. -/
def keptCopies (body : Matcher text) (spare : Option Nat) (pos : Position text)
    (marks : Marks) : Outcome text :=
  if spare = some 0 then matched pos marks
  else
    let outcome := body pos marks matched
    match outcome.stop? with
    | some stop =>
      if _later : pos.val < stop.val then keptCopies body (less spare) stop outcome.marks
      else matched stop outcome.marks
    | none => matched pos marks
termination_by text.length - pos.val
decreasing_by omega

/-- Goes on where an outcome ends. -/
def Outcome.andThen (outcome : Outcome text) (next : Continuation text) : Outcome text :=
  match outcome.stop? with
  | some stop => next stop outcome.marks
  | none => outcome

/-- Copies of a body. -/
def repeatedBody (body : Matcher text) (inRepetition : Bool) (least : Nat) (most : Option Nat)
    (mode : Mode) : Matcher text := fun pos marks next =>
  let spare := most.map (· - least)
  match mode with
  | .greedy => dueCopies body (manyCopies body next spare) least pos marks
  | .reluctant => dueCopies body (fewCopies body inRepetition next spare) least pos marks
  | .possessive =>
    ((keptDueCopies body least pos marks).andThen (keptCopies body spare)).andThen next

end Matcher

/-! ## Patterns -/

/-- The test that a pattern is which takes one character, if it is one. -/
def Pattern.test? (flags : Flags) : Pattern → Option (Char → Bool)
  | .single test => some (test.holds flags)
  | .group none on off body => body.test? (flags.within on off)
  | _ => none

/-- The characters of `span`, letters up to case, stand at the position. -/
def standsAt (flags : Flags) (text : List Char) (span : Nat × Nat) (pos : Nat) : Bool :=
  let lower (c : Char) := flags.case.lower c.toNat
  let length := span.2 - span.1
  ((text.drop span.1).take length).map lower == ((text.drop pos).take length).map lower

def Pattern.matcher (text : List Char) (flags : Flags) (inRepetition : Bool) :
    Pattern → Matcher text
  | .empty, pos, marks, next => next pos marks
  | .single test, pos, marks, next =>
    if (text[pos.val]?.map (test.holds flags)).getD false then next.after 1 pos marks
    else .failed marks
  | .assertion condition, pos, marks, next =>
    if condition.holds flags text pos then next pos marks else .failed marks
  | .reference number _, pos, marks, next =>
    match marks.span? number with
    | some span =>
      if standsAt flags text span pos then next.after (span.2 - span.1) pos marks
      else .failed marks
    | none => .failed marks
  | .sequence first second, pos, marks, next =>
    first.matcher text flags inRepetition pos marks fun pos marks =>
      second.matcher text flags inRepetition pos marks next
  | .choice first second, pos, marks, next =>
    firstOf inRepetition marks [
      fun marks => first.matcher text flags inRepetition pos marks next,
      fun marks => second.matcher text flags inRepetition pos marks next]
  | .repeated body least most mode, pos, marks, next =>
    match body.test? flags with
    | some test => repeatedTest test inRepetition least most mode pos marks next
    | none =>
      let inBody := inRepetition || mode != .possessive
      repeatedBody (body.matcher text flags inBody) inRepetition least most mode pos marks next
  | .group none on off body, pos, marks, next =>
    body.matcher text (flags.within on off) inRepetition pos marks next
  | .group (some number) on off body, pos, marks, next =>
    body.matcher text (flags.within on off) inRepetition pos
      (marks.put (2 * number - 2) pos) fun stop marks =>
        next stop (marks.put (2 * number - 1) stop)
  | .atomic body, pos, marks, next =>
    (body.matcher text flags inRepetition pos marks matched).andThen next
  | .look behind negated body, pos, marks, next =>
    match back? pos (if behind then body.width.least else 0) with
    | some start =>
      let outcome := body.matcher text flags inRepetition start marks matched
      if outcome.stop?.isSome then
        if negated then .failed outcome.marks else next pos outcome.marks
      else if negated then next pos (marks.takenBack inRepetition outcome.marks)
      else .failed outcome.marks
    | none => if negated then next pos marks else .failed marks
  | .conditional number found missing, pos, marks, next =>
    if (marks.span? number).isSome then found.matcher text flags inRepetition pos marks next
    else missing.matcher text flags inRepetition pos marks next

/-- The whole text matches. -/
def Pattern.matchesAll (pattern : Pattern) (text : List Char) : Bool :=
  let toEnd : Continuation text := fun pos marks =>
    if pos.val = text.length then matched pos marks else .failed marks
  (pattern.matcher text [.unicode] false 0 [] toEnd).stop?.isSome

end DartBindings.Regex
