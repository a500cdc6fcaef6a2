import DartBindings.Regex.CharacterNames
import DartBindings.Regex.Flaw
import DartBindings.Regex.Syntax
import DartBindings.Text.Character

/-!
Escapes: what a backslash and the character after it stand for, with the digits or the name that
belong to them.

Readers are given what is left to read behind what has been read already, and answer with how many
signs of it they have read. A flaw is mostly reported at the start of what it is a flaw of.
-/

set_option autoImplicit false

namespace DartBindings.Regex

open Text

/-- What an escape stands for. -/
inductive Escape where
  | char (code : Nat)
  | category (category : Category) (negated : Bool)
  | assertion (assertion : Assertion)
  | reference (group : Nat)
  deriving DecidableEq, Repr

def escapeText (c : Char) (digits : List Char) : String :=
  String.ofList ('\\' :: c :: digits)

/-- The last code of a character. -/
def lastCode : Nat := 0x10FFFF

/-- From here on a code does not fit the machine's numbers. -/
def codeLimit : Nat := 0x80000000

/-- The character that `count` digits to base sixteen name. -/
def hexEscape (start : Nat) (c : Char) (count : Nat) (input : Input) : Reading (Escape × Nat) :=
  let digits := (plainRun (isDigitTo 16) input.rest).take count
  let after := input.skip digits.length
  if digits.length < count then
    after.refuseAt start (.incompleteEscape (escapeText c digits))
  else
    let code := (numeral? 16 digits).getD 0
    if codeLimit ≤ code then after.refuseWhole .hugeCode
    else if lastCode < code then after.refuseAt start (.badEscape (escapeText c digits))
    else .ok (.char code, count)

/-- The character that a digit to base eight and `digits` name together. -/
def octalEscape (start : Nat) (c : Char) (digits : List Char) (input : Input) :
    Reading (Escape × Nat) :=
  let code := (numeral? 8 (c :: digits)).getD 0
  if code ≤ 0o377 then .ok (.char code, digits.length)
  else (input.skip digits.length).refuseAt start (.wideOctal (escapeText c digits))

/-- A number after a backslash, at least ten or of one digit: a character if it has three digits
to base eight, or else a group. -/
def numberEscape (start : Nat) (c : Char) (input : Input) : Reading (Escape × Nat) :=
  let digits := (plainRun Char.isDigit input.rest).take 1
  let octal := (plainRun (isDigitTo 8) input.rest).take 2
  if isDigitTo 8 c && octal.length = 2 then octalEscape start c octal input
  else .ok (.reference ((numeral? 10 (c :: digits)).getD 0), digits.length)

/-- The text up to its terminator, which is read too. -/
def nameUntil (terminator : Char) (what : String) (input : Input) : Reading (List Char × Nat) :=
  let name := input.rest.takeWhile (· != .plain terminator)
  let length := name.length
  if length < input.rest.length then
    if name.isEmpty then (input.skip 1).refuseAt input.position (.missing what)
    else .ok (written name, length + 1)
  else
    (input.skip length).refuseAt input.position
      (if name.isEmpty then .missing what else .unendedName terminator)

section Names

variable [CharacterNames]

/-- A character by its name in braces. -/
def namedEscape (start : Nat) (input : Input) : Reading (Escape × Nat) :=
  match input.rest with
  | .plain '\x7b' :: _ => do
    let (name, n) ← nameUntil '\x7d' "character name" (input.skip 1)
    let name := String.ofList name
    match CharacterNames.lookup name with
    | some c => return (.char c.toNat, n + 1)
    | none => (input.skip (n + 1)).refuseAt start (.unknownCharacterName name)
  | _ => input.refuse (.missing "\x7b")

/-- What `c` after a backslash stands for. In a set, `b` is the backspace and neither a position
nor a group can be named. Other letters and digits have no meaning. -/
def escapeOf (inSet : Bool) (start : Nat) (c : Char) (input : Input) : Reading (Escape × Nat) :=
  let noEscape : Reading (Escape × Nat) := input.refuseAt start (.badEscape (escapeText c []))
  let assertion (assertion : Assertion) : Reading (Escape × Nat) :=
    if inSet then noEscape else .ok (.assertion assertion, 0)
  match c with
  | 'd' => .ok (.category .digit false, 0)
  | 'D' => .ok (.category .digit true, 0)
  | 's' => .ok (.category .blank false, 0)
  | 'S' => .ok (.category .blank true, 0)
  | 'w' => .ok (.category .word false, 0)
  | 'W' => .ok (.category .word true, 0)
  | 'a' => .ok (.char 7, 0)
  | 'f' => .ok (.char 12, 0)
  | 'n' => .ok (.char 10, 0)
  | 'r' => .ok (.char 13, 0)
  | 't' => .ok (.char 9, 0)
  | 'v' => .ok (.char 11, 0)
  | 'x' => hexEscape start c 2 input
  | 'u' => hexEscape start c 4 input
  | 'U' => hexEscape start c 8 input
  | 'N' => namedEscape start input
  | 'b' => if inSet then .ok (.char 8, 0) else .ok (.assertion (.boundary false), 0)
  | 'B' => assertion (.boundary true)
  | 'A' => assertion .veryStart
  | 'Z' => assertion .veryEnd
  | _ =>
    if c = '0' || (inSet && isDigitTo 8 c) then
      octalEscape start c ((plainRun (isDigitTo 8) input.rest).take 2) input
    else if c.isDigit && !inSet then numberEscape start c input
    else if c.isAlphanum then noEscape
    else .ok (.char c.toNat, 0)

end Names

end DartBindings.Regex
