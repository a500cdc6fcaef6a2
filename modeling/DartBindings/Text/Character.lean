/-!
Characters: blank ones and decimal digits among them, the removal of blanks around and inside a
text, and the numbers that digits denote.
-/

set_option autoImplicit false

namespace DartBindings.Text

/-! ## Ranges -/

/-- Membership in a set of ranges. The ranges ascend, so the search ends at the first range
that starts beyond the character. -/
def inRanges (ranges : List (Nat × Nat)) (c : Char) : Bool :=
  match ranges with
  | [] => false
  | (first, last) :: rest =>
    if c.toNat < first then false
    else if c.toNat ≤ last then true
    else inRanges rest c

/-! ## Blanks -/

/-- Blank characters: the ASCII controls that space or separate, and the spaces and line
separators beyond ASCII. The zero-width space and the byte order mark are not blank. -/
def isBlank (c : Char) : Bool :=
  let code := c.toNat
  (9 ≤ code && code ≤ 13) || (28 ≤ code && code ≤ 32) || code == 0x85 || code == 0xA0
    || code == 0x1680 || (0x2000 ≤ code && code ≤ 0x200A) || code == 0x2028 || code == 0x2029
    || code == 0x202F || code == 0x205F || code == 0x3000

/-- The blank characters of ASCII but for the controls that separate. -/
def isAsciiBlank (c : Char) : Bool :=
  (9 ≤ c.toNat && c.toNat ≤ 13) || c == ' '

/-- The text without the final characters that satisfy `p`. -/
def dropEndWhile (p : Char → Bool) (text : List Char) : List Char :=
  (text.reverse.dropWhile p).reverse

/-- The text without blanks at its ends. -/
def strip (text : List Char) : List Char :=
  dropEndWhile isBlank (text.dropWhile isBlank)

def squeeze (text : List Char) : List Char :=
  text.filter fun c => !isBlank c

def trimmed (text : String) : String :=
  String.ofList (strip text.toList)

def compact (text : String) : String :=
  String.ofList (squeeze text.toList)

/-! ## Digits -/

/-- The runs of decimal digits beyond ASCII. -/
def digitRanges : List (Nat × Nat) := [
  (0x660, 0x669), (0x6F0, 0x6F9), (0x7C0, 0x7C9), (0x966, 0x96F), (0x9E6, 0x9EF),
  (0xA66, 0xA6F), (0xAE6, 0xAEF), (0xB66, 0xB6F), (0xBE6, 0xBEF), (0xC66, 0xC6F),
  (0xCE6, 0xCEF), (0xD66, 0xD6F), (0xDE6, 0xDEF), (0xE50, 0xE59), (0xED0, 0xED9),
  (0xF20, 0xF29), (0x1040, 0x1049), (0x1090, 0x1099), (0x17E0, 0x17E9), (0x1810, 0x1819),
  (0x1946, 0x194F), (0x19D0, 0x19D9), (0x1A80, 0x1A89), (0x1A90, 0x1A99), (0x1B50, 0x1B59),
  (0x1BB0, 0x1BB9), (0x1C40, 0x1C49), (0x1C50, 0x1C59), (0xA620, 0xA629), (0xA8D0, 0xA8D9),
  (0xA900, 0xA909), (0xA9D0, 0xA9D9), (0xA9F0, 0xA9F9), (0xAA50, 0xAA59), (0xABF0, 0xABF9),
  (0xFF10, 0xFF19), (0x104A0, 0x104A9), (0x10D30, 0x10D39), (0x11066, 0x1106F),
  (0x110F0, 0x110F9), (0x11136, 0x1113F), (0x111D0, 0x111D9), (0x112F0, 0x112F9),
  (0x11450, 0x11459), (0x114D0, 0x114D9), (0x11650, 0x11659), (0x116C0, 0x116C9),
  (0x11730, 0x11739), (0x118E0, 0x118E9), (0x11950, 0x11959), (0x11C50, 0x11C59),
  (0x11D50, 0x11D59), (0x11DA0, 0x11DA9), (0x16A60, 0x16A69), (0x16AC0, 0x16AC9),
  (0x16B50, 0x16B59), (0x1D7CE, 0x1D7FF), (0x1E140, 0x1E149), (0x1E2F0, 0x1E2F9),
  (0x1E950, 0x1E959), (0x1FBF0, 0x1FBF9)]

/-- A decimal digit of some script. -/
def isDecimal (c : Char) : Bool :=
  if c.val < 128 then c.isDigit else inRanges digitRanges c

/-! ## Numerals -/

def digitValue? (base : Nat) (c : Char) : Option Nat :=
  let value :=
    if c.isDigit then c.toNat - '0'.toNat
    else if 'a' ≤ c && c ≤ 'f' then c.toNat - 'a'.toNat + 10
    else if 'A' ≤ c && c ≤ 'F' then c.toNat - 'A'.toNat + 10
    else base
  if value < base then some value else none

def isDigitTo (base : Nat) (c : Char) : Bool :=
  (digitValue? base c).isSome

/-- The number that digits to the base denote; `none` if there are no digits, or if one is none
to the base. -/
def numeral? (base : Nat) (digits : List Char) : Option Nat :=
  if digits.isEmpty then none
  else (digits.mapM (digitValue? base)).map
    (List.foldl (fun number value => number * base + value) 0)

/-- The character with this code point, if there is one. -/
def charOf? (code : Nat) : Option Char :=
  if code.isValidChar then some (Char.ofNat code) else none

/-- The value of a decimal digit. The digits of a script follow one another. -/
def decimalValue? (c : Char) : Option Nat :=
  if c.val < 128 then digitValue? 10 c
  else
    (digitRanges.find? fun range => range.1 ≤ c.toNat && c.toNat ≤ range.2).map fun range =>
      (c.toNat - range.1) % 10

/-- The longest run of digits that is read as a number. -/
def digitLimit : Nat := 4300

/-- The number of a run of decimal digits of any script, single underscores between them. -/
def decimal? (text : List Char) : Option Nat := do
  let digits := text.filter (· != '_')
  let apart := text.head? != some '_' && text.getLast? != some '_' &&
    (text.zip (text.drop 1)).all fun pair => !(pair.1 == '_' && pair.2 == '_')
  if digits.isEmpty || !apart || digitLimit < digits.length then none
  else
    let values ← digits.mapM decimalValue?
    return values.foldl (fun number value => number * 10 + value) 0

/-- The whole number that a text denotes, with blanks around it and a sign before it or not. -/
def integer? (text : List Char) : Option Int :=
  let isSpace (c : Char) : Bool := isAsciiBlank c || (127 < c.toNat && isBlank c)
  match dropEndWhile isSpace (text.dropWhile isSpace) with
  | '-' :: digits => (decimal? digits).map fun number => -(number : Int)
  | '+' :: digits => (decimal? digits).map fun number => (number : Int)
  | digits => (decimal? digits).map fun number => (number : Int)

end DartBindings.Text
