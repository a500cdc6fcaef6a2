/-!
The names of characters, by which patterns can denote them. Which characters have names, and which
ones, is settled elsewhere; the names of ASCII characters are listed here.
-/

set_option autoImplicit false

namespace DartBindings.Regex

/-- The characters that have names. -/
class CharacterNames where
  lookup : String → Option Char

/-- The names and the abbreviations of the ASCII characters that are no letters. -/
def asciiSymbols : List (String × Nat) := [
  ("NULL", 0x00), ("NUL", 0x00), ("START OF HEADING", 0x01), ("SOH", 0x01),
  ("START OF TEXT", 0x02), ("STX", 0x02), ("END OF TEXT", 0x03), ("ETX", 0x03),
  ("END OF TRANSMISSION", 0x04), ("EOT", 0x04), ("ENQUIRY", 0x05), ("ENQ", 0x05),
  ("ACKNOWLEDGE", 0x06), ("ACK", 0x06), ("ALERT", 0x07), ("BEL", 0x07), ("BACKSPACE", 0x08),
  ("BS", 0x08), ("CHARACTER TABULATION", 0x09), ("HORIZONTAL TABULATION", 0x09), ("HT", 0x09),
  ("TAB", 0x09), ("LINE FEED", 0x0A), ("NEW LINE", 0x0A), ("END OF LINE", 0x0A), ("LF", 0x0A),
  ("NL", 0x0A), ("EOL", 0x0A), ("LINE TABULATION", 0x0B), ("VERTICAL TABULATION", 0x0B),
  ("VT", 0x0B), ("FORM FEED", 0x0C), ("FF", 0x0C), ("CARRIAGE RETURN", 0x0D), ("CR", 0x0D),
  ("SHIFT OUT", 0x0E), ("LOCKING-SHIFT ONE", 0x0E), ("SO", 0x0E), ("SHIFT IN", 0x0F),
  ("LOCKING-SHIFT ZERO", 0x0F), ("SI", 0x0F), ("DATA LINK ESCAPE", 0x10), ("DLE", 0x10),
  ("DEVICE CONTROL ONE", 0x11), ("DC1", 0x11), ("DEVICE CONTROL TWO", 0x12), ("DC2", 0x12),
  ("DEVICE CONTROL THREE", 0x13), ("DC3", 0x13), ("DEVICE CONTROL FOUR", 0x14), ("DC4", 0x14),
  ("NEGATIVE ACKNOWLEDGE", 0x15), ("NAK", 0x15), ("SYNCHRONOUS IDLE", 0x16), ("SYN", 0x16),
  ("END OF TRANSMISSION BLOCK", 0x17), ("ETB", 0x17), ("CANCEL", 0x18), ("CAN", 0x18),
  ("END OF MEDIUM", 0x19), ("EOM", 0x19), ("SUBSTITUTE", 0x1A), ("SUB", 0x1A), ("ESCAPE", 0x1B),
  ("ESC", 0x1B), ("INFORMATION SEPARATOR FOUR", 0x1C), ("FILE SEPARATOR", 0x1C), ("FS", 0x1C),
  ("INFORMATION SEPARATOR THREE", 0x1D), ("GROUP SEPARATOR", 0x1D), ("GS", 0x1D),
  ("INFORMATION SEPARATOR TWO", 0x1E), ("RECORD SEPARATOR", 0x1E), ("RS", 0x1E),
  ("INFORMATION SEPARATOR ONE", 0x1F), ("UNIT SEPARATOR", 0x1F), ("US", 0x1F), ("SPACE", 0x20),
  ("SP", 0x20), ("EXCLAMATION MARK", 0x21), ("QUOTATION MARK", 0x22), ("NUMBER SIGN", 0x23),
  ("DOLLAR SIGN", 0x24), ("PERCENT SIGN", 0x25), ("AMPERSAND", 0x26), ("APOSTROPHE", 0x27),
  ("LEFT PARENTHESIS", 0x28), ("RIGHT PARENTHESIS", 0x29), ("ASTERISK", 0x2A),
  ("PLUS SIGN", 0x2B), ("COMMA", 0x2C), ("HYPHEN-MINUS", 0x2D), ("FULL STOP", 0x2E),
  ("SOLIDUS", 0x2F), ("DIGIT ZERO", 0x30), ("DIGIT ONE", 0x31), ("DIGIT TWO", 0x32),
  ("DIGIT THREE", 0x33), ("DIGIT FOUR", 0x34), ("DIGIT FIVE", 0x35), ("DIGIT SIX", 0x36),
  ("DIGIT SEVEN", 0x37), ("DIGIT EIGHT", 0x38), ("DIGIT NINE", 0x39), ("COLON", 0x3A),
  ("SEMICOLON", 0x3B), ("LESS-THAN SIGN", 0x3C), ("EQUALS SIGN", 0x3D),
  ("GREATER-THAN SIGN", 0x3E), ("QUESTION MARK", 0x3F), ("COMMERCIAL AT", 0x40),
  ("LEFT SQUARE BRACKET", 0x5B), ("REVERSE SOLIDUS", 0x5C), ("RIGHT SQUARE BRACKET", 0x5D),
  ("CIRCUMFLEX ACCENT", 0x5E), ("LOW LINE", 0x5F), ("GRAVE ACCENT", 0x60),
  ("LEFT CURLY BRACKET", 0x7B), ("VERTICAL LINE", 0x7C), ("RIGHT CURLY BRACKET", 0x7D),
  ("TILDE", 0x7E), ("DELETE", 0x7F), ("DEL", 0x7F)]

/-- The names of ASCII characters. Capital and small letters of a name are the same. -/
def asciiName? (name : String) : Option Char :=
  let name := name.toUpper
  let letter? (head : String) (first : Char) : Option Char :=
    (List.range 26).findSome? fun n =>
      if name == head ++ String.singleton (Char.ofNat (0x41 + n)) then
        some (Char.ofNat (first.toNat + n))
      else none
  ((asciiSymbols.lookup name).map Char.ofNat).or
    ((letter? "LATIN CAPITAL LETTER " 'A').or (letter? "LATIN SMALL LETTER " 'a'))

abbrev asciiNames : CharacterNames := ⟨asciiName?⟩

end DartBindings.Regex
