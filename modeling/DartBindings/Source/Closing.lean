import DartBindings.Source.Trivia

/-!
Literals and the delimiters that close a group.

A literal ends at its mark: the character that opened it, or three double quotes. Code
interpolated into it, in a dollar sign with braces or a backslash with parentheses, is skipped
as a group of its own, so a mark inside it does not end the literal. A group ends where its
depth, counted in its own two delimiters, falls to zero; literals and comments inside it do not
count. An interpolation that is never closed takes the rest of the text, and the literal with it.

A delimiter may be `none`, which no character is: without an opening one a group does not nest,
and without a closing one it is never closed.
-/

set_option autoImplicit false

namespace DartBindings.Source

open Text

/-- The two characters that start a literal. -/
def isQuote (c : Char) : Bool :=
  c == '"' || c == '\''

def tripleQuote : List Char :=
  ['"', '"', '"']

mutual

/-- The length of a literal's contents with the mark that closes it, or of the whole text if
the literal is never closed. `none` if a line break comes first in a literal marked by an
apostrophe: such an apostrophe opens no literal. -/
def contentLength (mark : List Char) (text : List Char) : Option Nat :=
  match text with
  | [] => some 0
  | c :: rest =>
    if mark.isPrefixOf (c :: rest) then some mark.length
    else if c = '\\' then
      match rest with
      | [] => some 1
      | d :: code =>
        if d = '(' then
          match closingIndex (some '(') (some ')') 1 code with
          | none => some (code.length + 2)
          | some n => (contentLength mark (code.drop (n + 1))).map (· + (n + 3))
        else (contentLength mark code).map (· + 2)
    else if c = '$' then
      match rest with
      | [] => some 1
      | d :: code =>
        if d = '{' then
          match closingIndex (some '{') (some '}') 1 code with
          | none => some (code.length + 2)
          | some n => (contentLength mark (code.drop (n + 1))).map (· + (n + 3))
        else (contentLength mark (d :: code)).map (· + 1)
    else if c = '\n' && mark == ['\''] then none
    else (contentLength mark rest).map (· + 1)
termination_by 2 * text.length
decreasing_by all_goals (simp only [List.length_cons, List.length_drop]; omega)

/-- The length of the literal that `quote` opens, without `quote` itself. -/
def tailLength (quote : Char) (rest : List Char) : Nat :=
  if tripleQuote.isPrefixOf (quote :: rest) then
    (contentLength tripleQuote (rest.drop 2)).getD 0 + 2
  else (contentLength [quote] rest).getD 0
termination_by 2 * rest.length + 1
decreasing_by
  · simp only [List.length_drop]; omega
  · omega

/-- The offset of the delimiter that closes a group of which `depth` levels are open. The
opening delimiter is tested before the closing one. -/
def closingIndex (opening closing : Option Char) (depth : Nat) (text : List Char) : Option Nat :=
  match text with
  | [] => none
  | c :: rest =>
    if isQuote c then
      let n := tailLength c rest
      (closingIndex opening closing depth (rest.drop n)).map (· + (n + 1))
    else
      match commentLength (c :: rest) with
      | n + 1 =>
        let trivia := n + triviaLength (rest.drop n)
        (closingIndex opening closing depth (rest.drop trivia)).map (· + (trivia + 1))
      | 0 =>
        if some c = opening then (closingIndex opening closing (depth + 1) rest).map (· + 1)
        else if some c = closing then
          if depth ≤ 1 then some 0
          else (closingIndex opening closing (depth - 1) rest).map (· + 1)
        else (closingIndex opening closing depth rest).map (· + 1)
termination_by 2 * text.length
decreasing_by all_goals (simp only [List.length_cons, List.length_drop]; omega)

end

/-- The length of the literal that starts the text, its marks included. -/
def literalLength : List Char → Nat
  | [] => 0
  | quote :: rest => tailLength quote rest + 1

/-- The offset after the literal that starts at `pos`. -/
def skipLiteral (text : List Char) (pos : Nat) : Nat :=
  pos + literalLength (text.drop pos)

/-- A group that the text does not close: where its body starts, and all that follows. -/
structure Unbalanced where
  start : Nat
  body : List Char
  deriving DecidableEq, Repr

def Unbalanced.message (failure : Unbalanced) : String :=
  s!"Unbalanced delimiters in body starting at offset {failure.start}"

/-- The offset of the delimiter that closes the group whose body starts at `start`. -/
def findClosing (text : List Char) (start : Nat) (opening closing : Option Char) :
    Except Unbalanced Nat :=
  match closingIndex opening closing 1 (text.drop start) with
  | some n => .ok (start + n)
  | none => .error ⟨start, text.drop start⟩

/-- The body that starts at `start`, up to the delimiter that closes it. -/
def groupBody (text : List Char) (start : Nat) (opening closing : Option Char) :
    Except Unbalanced (List Char) :=
  match closingIndex opening closing 1 (text.drop start) with
  | some n => .ok ((text.drop start).take n)
  | none => .error ⟨start, text.drop start⟩

/-- The text with one space in place of each comment and the trivia after it. Literals are
kept as they are. -/
def stripComments (text : List Char) : List Char :=
  match text with
  | [] => []
  | c :: rest =>
    if isQuote c then
      let n := tailLength c rest
      c :: (rest.take n ++ stripComments (rest.drop n))
    else
      match commentLength (c :: rest) with
      | n + 1 => ' ' :: stripComments (rest.drop (n + triviaLength (rest.drop n)))
      | 0 => c :: stripComments rest
termination_by text.length
decreasing_by all_goals (simp only [List.length_cons, List.length_drop]; omega)

end DartBindings.Source
