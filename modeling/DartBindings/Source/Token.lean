import DartBindings.Source.Closing
import DartBindings.Text.Alnum

/-!
Tokens: words, markers, literals and symbols, read one at a time inside a window of the text.

A word is a run of word characters or a name between backticks, a marker is a word after an
at-sign, a literal is as long as its contents, and whatever else is significant is a symbol of
one character, or of two for the arrow and the double colon. The window cuts everything but
symbols: the second character of a symbol may lie beyond it.
-/

set_option autoImplicit false

namespace DartBindings.Source

open Text

inductive TokenKind where
  | word
  | marker
  | literal
  | symbol
  deriving DecidableEq, Repr

/-- A token with its text, without the marks of a name or a marker, and its span. -/
structure Token where
  kind : TokenKind
  value : String
  start : Nat
  stop : Nat
  deriving DecidableEq, Repr

/-- The mark around a quoted name. -/
def backtick : Char := Char.ofNat 0x60

/-- What a token reader takes from the start of a text: a kind, the token's text, and the
number of characters taken. -/
structure Lexeme where
  kind : TokenKind
  value : List Char
  length : Nat
  deriving DecidableEq, Repr

/-- A name between backticks, after its first mark. If the window of `room` characters, of
which that mark was the first, has no second mark, then the name ends one character before the
window does. -/
def quotedName (room : Nat) (rest : List Char) : Lexeme :=
  match (rest.take (room - 1)).findIdx? (· == backtick) with
  | some n => ⟨.word, rest.take n, n + 2⟩
  | none => ⟨.word, rest.take (room - 2), room⟩

/-- The run of word characters at the start of the text, inside a window of `room`. -/
def wordRun (room : Nat) (text : List Char) : List Char :=
  (text.take room).takeWhile isWordChar

/-- The symbol that starts with `c`. -/
def symbolAt (c : Char) (rest : List Char) : Lexeme :=
  match c, rest with
  | '-', '>' :: _ => ⟨.symbol, ['-', '>'], 2⟩
  | ':', ':' :: _ => ⟨.symbol, [':', ':'], 2⟩
  | _, _ => ⟨.symbol, [c], 1⟩

/-- The token that starts with the significant character `c`, in a window of `room` characters
of which `c` is the first. -/
def lexemeAt (room : Nat) (c : Char) (rest : List Char) : Lexeme :=
  if isQuote c then
    let length := min (literalLength (c :: rest)) room
    ⟨.literal, (c :: rest).take length, length⟩
  else if c = backtick then quotedName room rest
  else
    let name := wordRun (room - 1) rest
    if c = '@' && !name.isEmpty then ⟨.marker, name, name.length + 1⟩
    else if isWordChar c then ⟨.word, c :: name, name.length + 1⟩
    else symbolAt c rest

/-- The first token at or after `pos` in the window that ends at `stop`. -/
def nextToken (text : List Char) (pos stop : Nat) : Option Token :=
  let start := skipTrivia text pos stop
  if stop ≤ start then none
  else
    match text.drop start with
    | [] => none
    | c :: rest =>
      let lexeme := lexemeAt (stop - start) c rest
      some ⟨lexeme.kind, String.ofList lexeme.value, start, start + lexeme.length⟩

/-! ## Reading advances -/

theorem quotedName_length_pos {room : Nat} {rest : List Char} (inside : 0 < room) :
    0 < (quotedName room rest).length := by
  unfold quotedName
  split
  · exact Nat.succ_pos _
  · exact inside

theorem symbolAt_length_pos (c : Char) (rest : List Char) : 0 < (symbolAt c rest).length := by
  unfold symbolAt
  split <;> exact Nat.succ_pos _

theorem lexemeAt_length_pos {room : Nat} (c : Char) (rest : List Char) (inside : 0 < room) :
    0 < (lexemeAt room c rest).length := by
  unfold lexemeAt
  split
  · exact Nat.lt_min.mpr ⟨Nat.succ_pos _, inside⟩
  · split
    · exact quotedName_length_pos inside
    · dsimp only
      split
      · exact Nat.succ_pos _
      · split
        · exact Nat.succ_pos _
        · exact symbolAt_length_pos c rest

theorem le_skipTrivia {text : List Char} {pos stop : Nat} (inside : pos ≤ stop) :
    pos ≤ skipTrivia text pos stop := by
  unfold skipTrivia
  omega

theorem nextToken_bounds {text : List Char} {pos stop : Nat} {token : Token}
    (read : nextToken text pos stop = some token) :
    pos ≤ token.start ∧ token.start < stop ∧ token.start < token.stop := by
  unfold nextToken at read
  dsimp only at read
  split at read
  · cases read
  · rename_i inside
    split at read
    · cases read
    · rename_i c rest _
      have room : 0 < stop - skipTrivia text pos stop := by omega
      have advances := lexemeAt_length_pos c rest room
      cases read
      dsimp only
      refine ⟨?_, by omega, by omega⟩
      by_cases ordered : pos ≤ stop
      · exact le_skipTrivia ordered
      · have : skipTrivia text pos stop = stop := by
          unfold skipTrivia
          omega
        omega

/-- A token lets the position advance, and it was read before the end of the window. -/
theorem nextToken_advances {text : List Char} {pos stop : Nat} {token : Token}
    (read : nextToken text pos stop = some token) : pos < token.stop ∧ pos < stop := by
  have bounds := nextToken_bounds read
  omega

/-- All tokens of the window from `pos` to `stop`, in order. -/
def tokens (text : List Char) (pos stop : Nat) : List Token :=
  match _read : nextToken text pos stop with
  | none => []
  | some token => token :: tokens text token.stop stop
termination_by stop - pos
decreasing_by
  have := nextToken_advances _read
  omega

end DartBindings.Source
