import DartBindings.Text.Character

/-!
Trivia: blanks and comments. A line comment runs through its line break, a block comment may
hold further block comments, and a comment that is never closed runs to the end of the text.
Lengths count the characters of the text that is given, from its first character on.
-/

set_option autoImplicit false

namespace DartBindings.Source

open Text

/-- The length of a line through its line break, or of the text if it has none. -/
def lineLength : List Char → Nat
  | [] => 0
  | c :: rest => if c = '\n' then 1 else lineLength rest + 1

/-- The length of the rest of a block comment in which `depth` comments are open. -/
def blockLength (depth : Nat) : List Char → Nat
  | '/' :: '*' :: rest => blockLength (depth + 1) rest + 2
  | '*' :: '/' :: rest => if depth ≤ 1 then 2 else blockLength (depth - 1) rest + 2
  | _ :: rest => blockLength depth rest + 1
  | [] => 0

/-- The length of the comment that starts the text; zero if none does. -/
def commentLength : List Char → Nat
  | '/' :: '/' :: rest => lineLength rest + 2
  | '/' :: '*' :: rest => blockLength 1 rest + 2
  | _ => 0

/-- The length of the blanks and comments that start the text. -/
def triviaLength (text : List Char) : Nat :=
  match text with
  | [] => 0
  | c :: rest =>
    if isBlank c then triviaLength rest + 1
    else
      match commentLength (c :: rest) with
      | 0 => 0
      | n + 1 => triviaLength (rest.drop n) + (n + 1)
termination_by text.length

/-- The offset after the trivia at `pos`, but no further than `stop`. -/
def skipTrivia (text : List Char) (pos stop : Nat) : Nat :=
  min (pos + triviaLength (text.drop pos)) stop

end DartBindings.Source
