import DartBindings.Text.Printable
import DartBindings.Text.Unicode

/-!
Raw texts: what the system hands over as text. A byte that is no part of a character is kept in
them as a code point of its own, which has no encoding. The text cannot be written to a file then,
and reports spell the byte out.
-/

set_option autoImplicit false

namespace DartBindings.Text

/-- A character, or a byte beyond ASCII that belongs to none. -/
inductive CodePoint where
  | char (c : Char)
  | stray (byte : Fin 128)
  deriving DecidableEq, Repr

/-- The code of a code point. A stray byte has a code that is no character's. -/
def CodePoint.code : CodePoint → Nat
  | .char c => c.toNat
  | .stray byte => 0xDC80 + byte.val

def CodePoint.char? : CodePoint → Option Char
  | .char c => some c
  | .stray _ => none

/-- A text that may hold stray bytes. -/
abbrev RawText := List CodePoint

def RawText.ofString (text : String) : RawText := text.toList.map .char

instance : Coe String RawText := ⟨RawText.ofString⟩

def RawText.codes (text : RawText) : List Nat := text.map CodePoint.code

/-! ## Quoted texts -/

/-- The digits of `n` to base sixteen, at least `width` of them. -/
def hexDigits (width n : Nat) : List Char :=
  let digits := Nat.toDigits 16 n
  List.replicate (width - digits.length) '0' ++ digits

/-- The code that a character without a shape is written as. -/
def escapedCode (code : Nat) : List Char :=
  if code < 0x100 then '\\' :: 'x' :: hexDigits 2 code
  else if code < 0x10000 then '\\' :: 'u' :: hexDigits 4 code
  else '\\' :: 'U' :: hexDigits 8 code

/-- A code point between quotes that are `mark`. -/
def quoteChar (mark : Char) : CodePoint → List Char
  | .char c =>
    if c = '\\' || c = mark then ['\\', c]
    else if c = '\n' then ['\\', 'n']
    else if c = '\r' then ['\\', 'r']
    else if c = '\t' then ['\\', 't']
    else if isPrintable c then [c]
    else escapedCode c.toNat
  | .stray byte => escapedCode (CodePoint.stray byte).code

/-- The text as reports quote it: between apostrophes, or between double quotes if it holds an
apostrophe and no double quote. A backslash, the mark itself and what has no shape are escaped. -/
def quote (text : RawText) : String :=
  let apart := text.contains (.char '\'') && !text.contains (.char '"')
  let mark := if apart then '"' else '\''
  String.ofList (mark :: (text.flatMap (quoteChar mark) ++ [mark]))

def escapePoint : CodePoint → List Char
  | .char c => [c]
  | .stray byte => escapedCode (CodePoint.stray byte).code

/-- The text with the codes of its stray bytes, as it is printed in reports. -/
def RawText.escaped (text : RawText) : String :=
  String.ofList (text.flatMap escapePoint)

/-! ## Encoding -/

/-- Why a text has no encoding: the first stray bytes in a row, and where they start. -/
structure EncodeError where
  start : Nat
  run : RawText
  deriving DecidableEq, Repr

def EncodeError.message (error : EncodeError) : String :=
  let place :=
    match error.run with
    | [point] =>
      " '" ++ String.ofList (escapedCode point.code) ++ "' in position " ++ toString error.start
    | run => "s in position " ++ toString error.start ++ "-"
        ++ toString (error.start + run.length - 1)
  "'utf-8' codec can't encode character" ++ place ++ ": surrogates not allowed"

/-- The text without stray bytes that this is, if it is one. -/
def RawText.toString (text : RawText) : Except EncodeError String :=
  match text.mapM CodePoint.char? with
  | some chars => .ok (String.ofList chars)
  | none =>
    let isStray (point : CodePoint) := point.char?.isNone
    let start := text.findIdx isStray
    .error ⟨start, (text.drop start).takeWhile isStray⟩

def RawText.encode (text : RawText) : Except EncodeError (List UInt8) :=
  text.toString.map encodeUtf8

end DartBindings.Text
