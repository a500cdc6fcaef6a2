/-!
The encodings of Unicode: reading bytes as characters, and writing them.

A sequence of bytes is well-formed UTF-8 if it has the shortest form of a scalar value. Where the
bytes are not well formed, the longest beginning of a well-formed sequence, or else a single byte,
is one fault. Reading either refuses a text with a fault or puts the replacement character for it.

UTF-16 has two bytes to a unit. A unit that stands for the upper part of a character beyond the
basic plane takes the ten lower bits of the unit after it, whatever that unit is; the lower part of
a character does not stand alone.
-/

set_option autoImplicit false

namespace DartBindings.Text

/-! ## UTF-8 -/

/-- Reads `count` continuation bytes, the first between `low` and `high`, after a lead whose
bits are `code`. Gives the code point, unless a byte does not fit, and the number of bytes that
fit. -/
def continuation (count : Nat) (low high : UInt8) (code : Nat) : List UInt8 → Option Nat × Nat
  | [] => (if count = 0 then some code else none, 0)
  | byte :: rest =>
    match count with
    | 0 => (some code, 0)
    | count + 1 =>
      if low ≤ byte && byte ≤ high then
        let (found, taken) := continuation count 0x80 0xBF (code * 64 + byte.toNat % 64) rest
        (found, taken + 1)
      else (none, 0)

/-- The code point that starts with the byte `lead`, unless there is a fault, and the number of
bytes after `lead` that belong to it or to the fault. -/
def sequenceAt (lead : UInt8) (rest : List UInt8) : Option Nat × Nat :=
  if lead < 0x80 then (some lead.toNat, 0)
  else if lead < 0xC2 then (none, 0)
  else if lead < 0xE0 then continuation 1 0x80 0xBF (lead.toNat % 32) rest
  else if lead = 0xE0 then continuation 2 0xA0 0xBF 0 rest
  else if lead = 0xED then continuation 2 0x80 0x9F 13 rest
  else if lead < 0xF0 then continuation 2 0x80 0xBF (lead.toNat % 16) rest
  else if lead = 0xF0 then continuation 3 0x90 0xBF 0 rest
  else if lead < 0xF4 then continuation 3 0x80 0xBF (lead.toNat % 8) rest
  else if lead = 0xF4 then continuation 3 0x80 0x8F 4 rest
  else (none, 0)

/-- What stands for a fault. -/
def replacementChar : Char := Char.ofNat 0xFFFD

/-- The characters of the bytes, with `none` for each fault. -/
def scalars (bytes : List UInt8) : List (Option Char) :=
  match bytes with
  | [] => []
  | lead :: rest =>
    let (code, taken) := sequenceAt lead rest
    code.map Char.ofNat :: scalars (rest.drop taken)
termination_by bytes.length
decreasing_by simp only [List.length_cons, List.length_drop]; omega

def decodeReplacing (bytes : List UInt8) : List Char :=
  (scalars bytes).map fun scalar => scalar.getD replacementChar

def decodeUtf8? (bytes : List UInt8) : Option (List Char) :=
  (scalars bytes).mapM id

def encodeUtf8 (text : String) : List UInt8 :=
  text.toUTF8.toList

/-- The text with a line feed for each line break that holds a carriage return. -/
def unifyLineBreaks : List Char → List Char
  | '\r' :: '\n' :: rest => '\n' :: unifyLineBreaks rest
  | '\r' :: rest => '\n' :: unifyLineBreaks rest
  | c :: rest => c :: unifyLineBreaks rest
  | [] => []

/-! ## UTF-16 -/

/-- The units of the bytes, the more significant byte first or last. A byte that is left at the
end is not counted. -/
def units16 (bigEndian : Bool) : List UInt8 → List Nat
  | first :: second :: rest =>
    let unit :=
      if bigEndian then 256 * first.toNat + second.toNat else 256 * second.toNat + first.toNat
    unit :: units16 bigEndian rest
  | _ => []

def isUpperUnit (unit : Nat) : Bool :=
  0xD800 ≤ unit && unit < 0xDC00

def charsOfUnits? : List Nat → Option (List Char)
  | [] => some []
  | [unit] => if 0xD800 ≤ unit && unit < 0xE000 then none else some [Char.ofNat unit]
  | unit :: next :: rest =>
    if isUpperUnit unit then
      let char := Char.ofNat (0x10000 + (unit - 0xD800) * 1024 + next % 1024)
      (charsOfUnits? rest).map (char :: ·)
    else if 0xDC00 ≤ unit && unit < 0xE000 then none
    else (charsOfUnits? (next :: rest)).map (Char.ofNat unit :: ·)

def decodeUtf16? (bigEndian : Bool) (bytes : List UInt8) : Option (List Char) :=
  if bytes.length % 2 == 0 then charsOfUnits? (units16 bigEndian bytes) else none

end DartBindings.Text
