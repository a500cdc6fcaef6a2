import DartBindings.Regex.Syntax
import DartBindings.Text.Alnum
import DartBindings.Text.Casing

/-!
Which characters and which positions of a text pass the tests of a pattern.

Where letters match up to case, a member of a set is held against all letters that agree with
the character up to case; but a character beyond the basic plane is a member as it stands, so
there an upper-case letter holds nothing, and a range that ends beyond it also holds a letter if
it holds the character that starts the letter's upper-case form.
-/

set_option autoImplicit false

namespace DartBindings.Regex

open Text

/-! ## Case -/

/-- Which letters match each other. -/
inductive Case where
  | exact
  /-- Up to case, in ASCII. -/
  | ascii
  /-- Up to case, in every script. -/
  | full
  deriving DecidableEq, Repr

def Flags.case (flags : Flags) : Case :=
  if !flags.contains .ignoreCase then .exact
  else if flags.contains .unicode then .full
  else .ascii

/-- The code that stands for all that match it where characters are compared one by one. -/
def Case.lower (case : Case) (code : Nat) : Nat :=
  match case with
  | .exact => code
  | .ascii => lowerAscii code
  | .full => lowerCode code

/-- The characters with these codes match each other. -/
def Case.agrees (case : Case) (code other : Nat) : Bool :=
  match case with
  | .exact => code == other
  | .ascii => lowerAscii code == lowerAscii other
  | .full => sameLetter code other

/-- The greatest code of the basic plane. -/
def lastBasicCode : Nat := 0xFFFF

/-- The codes that a range up to `last` is tried with. -/
def Case.codes (case : Case) (last code : Nat) : List Nat :=
  let beyond := if last ≤ lastBasicCode then [] else [upperStart (case.lower code)]
  match case with
  | .exact => [code]
  | .ascii => lowerAscii code :: ((capitals (lowerAscii code)).filter (· < 128)) ++ beyond
  | .full => lettersLike code ++ beyond

/-! ## Characters -/

def Category.holds (flags : Flags) (category : Category) (c : Char) : Bool :=
  let inScope := flags.contains .unicode || c.val < 128
  match category with
  | .word => inScope && isWordChar c
  | .digit => inScope && isDecimal c
  | .blank => if flags.contains .unicode then isBlank c else isAsciiBlank c

def SetItem.holds (flags : Flags) (item : SetItem) (c : Char) : Bool :=
  let case := flags.case
  match item with
  | .char code =>
    if code ≤ lastBasicCode then case.agrees c.toNat code else case.lower c.toNat == code
  | .range first last =>
    (case.codes last c.toNat).any fun code => first ≤ code && code ≤ last
  | .category kind negated =>
    kind.holds flags (Char.ofNat (case.lower c.toNat)) != negated

def CharTest.holds (flags : Flags) (test : CharTest) (c : Char) : Bool :=
  match test with
  | .char negated code => flags.case.agrees c.toNat code != negated
  | .set negated items => (items.any fun item => item.holds flags c) != negated
  | .any => flags.contains .dotAll || c != '\n'

/-! ## Positions -/

def isWordAt (flags : Flags) (text : List Char) (pos : Nat) : Bool :=
  (text[pos]?.map (Category.word.holds flags)).getD false

def Assertion.holds (flags : Flags) (text : List Char) (pos : Nat) : Assertion → Bool
  | .start => pos == 0 || (flags.contains .multiline && text[pos - 1]? == some '\n')
  | .stop =>
    pos == text.length
      || (text[pos]? == some '\n' && (flags.contains .multiline || pos + 1 == text.length))
  | .veryStart => pos == 0
  | .veryEnd => pos == text.length
  | .boundary negated =>
    let before := 0 < pos && isWordAt flags text (pos - 1)
    !text.isEmpty && (before != isWordAt flags text pos) != negated

end DartBindings.Regex
