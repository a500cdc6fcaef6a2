import DartBindings.Regex.Sign
import DartBindings.Text.Raw

/-!
Flaws: why a text is no pattern, and the report on it, which counts positions in characters from
zero and lines from one.
-/

set_option autoImplicit false

namespace DartBindings.Regex

/-- Why a text is no pattern. -/
inductive Flaw where
  /-- A backslash ends the text. -/
  | danglingEscape
  | badEscape (escape : String)
  | incompleteEscape (escape : String)
  /-- An octal number is no code of a single byte. -/
  | wideOctal (escape : String)
  /-- A code does not even fit the machine's numbers. -/
  | hugeCode
  | unknownCharacterName (name : String)
  /-- A number stands for a group that there is not. -/
  | noGroup (number : Nat)
  | openGroup
  /-- A look-behind refers to a group inside of it. -/
  | groupInLookBehind
  | unclosedSet
  | badRange (first last : String)
  | nothingToRepeat
  | repeatedTwice
  /-- The least count is above the greatest. -/
  | reversedCounts
  | hugeCount
  /-- A count has more digits than are read. -/
  | longCount (digits : Nat)
  | unclosedGroup
  | strayParenthesis
  | unclosedComment
  /-- The text ends where a group says what it is for. -/
  | endOfText
  | unknownExtension (extension : String)
  | missing (what : String)
  | unendedName (terminator : Char)
  | badGroupName (name : String)
  | unknownGroupName (name : String)
  | sameGroupName (name : String) (number other : Nat)
  | groupZero
  | thirdBranch
  | unknownFlag
  | localeFlag
  /-- Two flags say which characters are letters. -/
  | mixedTypes
  | typeTurnedOff
  | globalTurnedOn
  | globalTurnedOff
  | contradictoryFlags
  /-- A flag for the whole pattern stands behind its start. -/
  | lateFlags
  /-- Two flags at the start say which characters are letters. -/
  | clashingTypes
  | unsteadyLookBehind
  | longLookBehind
  | templateRepeat (mode : String)
  deriving DecidableEq, Repr

def Flaw.text : Flaw → String
  | .danglingEscape => "bad escape (end of pattern)"
  | .badEscape escape => "bad escape " ++ escape
  | .incompleteEscape escape => "incomplete escape " ++ escape
  | .wideOctal escape => "octal escape value " ++ escape ++ " outside of range 0-0o377"
  | .hugeCode => "Python int too large to convert to C int"
  | .unknownCharacterName name => "undefined character name " ++ Text.quote name
  | .noGroup number => "invalid group reference " ++ toString number
  | .openGroup => "cannot refer to an open group"
  | .groupInLookBehind => "cannot refer to group defined in the same lookbehind subpattern"
  | .unclosedSet => "unterminated character set"
  | .badRange first last => "bad character range " ++ first ++ "-" ++ last
  | .nothingToRepeat => "nothing to repeat"
  | .repeatedTwice => "multiple repeat"
  | .reversedCounts => "min repeat greater than max repeat"
  | .hugeCount => "the repetition number is too large"
  | .longCount digits =>
    "Exceeds the limit (4300 digits) for integer string conversion: value has " ++ toString digits
      ++ " digits; use sys.set_int_max_str_digits() to increase the limit"
  | .unclosedGroup => "missing ), unterminated subpattern"
  | .strayParenthesis => "unbalanced parenthesis"
  | .unclosedComment => "missing ), unterminated comment"
  | .endOfText => "unexpected end of pattern"
  | .unknownExtension extension => "unknown extension " ++ extension
  | .missing what => "missing " ++ what
  | .unendedName terminator => "missing " ++ String.singleton terminator ++ ", unterminated name"
  | .badGroupName name => "bad character in group name " ++ Text.quote name
  | .unknownGroupName name => "unknown group name " ++ Text.quote name
  | .sameGroupName name number other =>
    "redefinition of group name " ++ Text.quote name ++ " as group " ++ toString number
      ++ "; was group " ++ toString other
  | .groupZero => "bad group number"
  | .thirdBranch => "conditional backref with more than two branches"
  | .unknownFlag => "unknown flag"
  | .localeFlag => "bad inline flags: cannot use 'L' flag with a str pattern"
  | .mixedTypes => "bad inline flags: flags 'a', 'u' and 'L' are incompatible"
  | .typeTurnedOff => "bad inline flags: cannot turn off flags 'a', 'u' and 'L'"
  | .globalTurnedOn => "bad inline flags: cannot turn on global flag"
  | .globalTurnedOff => "bad inline flags: cannot turn off global flag"
  | .contradictoryFlags => "bad inline flags: flag turned on and off"
  | .lateFlags => "global flags not at the start of the expression"
  | .clashingTypes => "ASCII and UNICODE flags are incompatible"
  | .unsteadyLookBehind => "look-behind requires fixed-width pattern"
  | .longLookBehind => "looks too much behind"
  | .templateRepeat mode => "internal: unsupported template operator " ++ mode

/-! ## Refusals -/

/-- Why reading a pattern ends early: the flaw, its position if it has one, and how many signs had
not been read yet. -/
structure Refusal where
  flaw : Flaw
  position : Option Nat
  unread : Nat

abbrev Reading := Except Refusal

/-- A flaw of what was read since `position`. -/
def Input.refuseAt {α : Type} (input : Input) (position : Nat) (flaw : Flaw) : Reading α :=
  .error ⟨flaw, some position, input.rest.length⟩

/-- A flaw of what comes next. -/
def Input.refuse {α : Type} (input : Input) (flaw : Flaw) : Reading α :=
  input.refuseAt input.position flaw

/-- A flaw whose place is not told. -/
def Input.refuseWhole {α : Type} (input : Input) (flaw : Flaw) : Reading α :=
  .error ⟨flaw, none, input.rest.length⟩

/-! ## Reports -/

/-- A text that was tried as a pattern and is none. -/
structure InvalidPattern where
  text : String
  flaw : Flaw
  position : Option Nat
  deriving DecidableEq, Repr

/-- The line and the column of a position. -/
def placeOf (text : List Char) (position : Nat) : Nat × Nat :=
  let before := text.take position
  ((before.filter (· == '\n')).length + 1,
    (before.reverse.takeWhile (· != '\n')).length + 1)

/-- A position in words; a text of several lines has lines and columns too. -/
def placeText (text : List Char) (position : Nat) : String :=
  let place := " at position " ++ toString position
  if text.contains '\n' then
    let (line, column) := placeOf text position
    place ++ " (line " ++ toString line ++ ", column " ++ toString column ++ ")"
  else place

/-- The report on a text that is no pattern. -/
def InvalidPattern.message (error : InvalidPattern) : String :=
  match error.position with
  | none => error.flaw.text
  | some position => error.flaw.text ++ placeText error.text.toList position

end DartBindings.Regex
