import DartBindings.Source.Trivia

/-!
The text of a type annotation. It runs to the first brace, equals sign, semicolon, line break or
unmatched closing bracket outside its own brackets, and a comment ends it anywhere.
-/

set_option autoImplicit false

namespace DartBindings.Source

open Text

/-- The length of a type's text in a window of `room` characters, `depth` brackets being open.
`afterDash` says that the character before the text is a dash, so that an angle ends an arrow. -/
def typeLength (afterDash : Bool) (depth room : Nat) : List Char → Nat
  | [] => 0
  | c :: rest =>
    if room = 0 then 0
    else if commentLength (c :: rest) ≠ 0 then 0
    else if c = '(' || c = '[' || c = '<' then
      typeLength false (depth + 1) (room - 1) rest + 1
    else if c = ')' || c = ']' || (c = '>' && !afterDash) then
      if depth = 0 then 0 else typeLength false (depth - 1) (room - 1) rest + 1
    else if depth = 0 && (c = '\x7b' || c = '\x7d' || c = '=' || c = ';' || c = '\n') then 0
    else typeLength (c = '-') depth (room - 1) rest + 1

/-- The type annotation at `pos`, stripped, and the offset where it ends. Spaces and tabs
before it are skipped; all of it lies before `stop`. -/
def captureType (text : List Char) (pos stop : Nat) : List Char × Nat :=
  let spaces := ((text.drop pos).take (stop - pos)).takeWhile fun c => c == ' ' || c == '\t'
  let start := pos + spaces.length
  let afterDash := 0 < start && text[start - 1]? == some '-'
  let length := typeLength afterDash 0 (stop - start) (text.drop start)
  (strip ((text.drop start).take length), start + length)

end DartBindings.Source
