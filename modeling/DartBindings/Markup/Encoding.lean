import DartBindings.Text.Charset
import DartBindings.Text.Unicode

/-!
Encodings: how the bytes of a document are read. The first bytes tell whether a character takes
one unit of a byte or of two; the declaration of the document may then name an encoding with
units of that size. UTF-8, US-ASCII, ISO-8859-1 and the forms of UTF-16 are known by these names,
and all others as charsets of one byte to a character.
-/

set_option autoImplicit false

namespace DartBindings.Markup

open Text

/-- How the bytes of a document are read. -/
inductive Encoding where
  | utf8
  | utf16 (bigEndian : Bool)
  /-- Bytes below `first` are themselves, the others characters of `upper`. -/
  | page (first : Nat) (upper : String)
  deriving DecidableEq, Repr

inductive DocumentError where
  | malformed
  | unknownEncoding (name : String)
  /-- The declaration names a charset that is no form of text. -/
  | packed (name : String)
  | severalBytes
  | refused (name cause : String)
  | notAscii
  deriving DecidableEq, Repr

def DocumentError.message : DocumentError → String
  | .malformed => "XML parsing error"
  | .unknownEncoding name => "unknown encoding: " ++ name
  | .packed name =>
    "'" ++ name ++ "' is not a text encoding; use codecs.decode() to handle arbitrary codecs"
  | .severalBytes => "multi-byte encodings are not supported"
  | .refused name cause =>
    "decoding with '" ++ name ++ "' codec failed (UnicodeError: " ++ cause ++ ")"
  | .notAscii =>
    "'ascii' codec can't decode byte 0x80 in position 82: ordinal not in range(128)"

def Encoding.unitSize : Encoding → Nat
  | .utf16 _ => 2
  | _ => 1

def Encoding.decode? (bytes : List UInt8) : Encoding → Option (List Char)
  | .utf8 => decodeUtf8? bytes
  | .utf16 bigEndian => decodeUtf16? bigEndian bytes
  | .page first upper => decodePage? first upper bytes

/-- The encoding that the first bytes show, and the bytes without a mark that announces it. -/
def Encoding.detect : List UInt8 → Encoding × List UInt8
  | 0xFE :: 0xFF :: rest => (.utf16 true, rest)
  | 0xFF :: 0xFE :: rest => (.utf16 false, rest)
  | 0xEF :: 0xBB :: 0xBF :: rest => (.utf8, rest)
  | 0x00 :: second :: rest => (.utf16 true, 0x00 :: second :: rest)
  | first :: 0x00 :: rest => (.utf16 false, first :: 0x00 :: rest)
  | bytes => (.utf8, bytes)

/-- The encoding, if its units have the size of those that the first bytes show. -/
def Encoding.within (shown encoding : Encoding) : Except DocumentError Encoding :=
  if encoding.unitSize == shown.unitSize then .ok encoding else .error .malformed

/-- The encoding that a declaration names in a document whose first bytes show another. -/
def Encoding.declared (shown : Encoding) (name : String) : Except DocumentError Encoding :=
  match name.toLower with
  | "utf-8" => shown.within .utf8
  | "us-ascii" => shown.within (.page 0x80 "")
  | "iso-8859-1" => shown.within (.page 0x100 "")
  | "utf-16" => if shown.unitSize == 2 then .ok shown else .error .malformed
  | "utf-16be" => if shown == .utf16 true then .ok shown else .error .malformed
  | "utf-16le" => if shown == .utf16 false then .ok shown else .error .malformed
  | _ =>
    match byteReading? name with
    | none => .error (.unknownEncoding name)
    | some (.page first upper) => .ok (.page first upper)
    | some .foreign => .error .malformed
    | some .severalBytes => .error .severalBytes
    | some .packed => .error (.packed name)
    | some (.refusing cause) => .error (.refused name cause)
    | some .asciiOnly => .error .notAscii

end DartBindings.Markup
