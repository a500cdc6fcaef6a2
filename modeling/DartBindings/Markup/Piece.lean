import DartBindings.Markup.NameChar

/-!
Pieces: the body of a document cut at its tags, comments, instructions and literal sections. A
tag holds what stands between its own delimiters, which is not looked at here.
-/

set_option autoImplicit false

namespace DartBindings.Markup

inductive Piece where
  | text (content : List Char)
  | literalSection
  | comment
  | instruction
  | opening (content : List Char)
  | closing (content : List Char)
  deriving DecidableEq, Repr

def indexOf? (mark : List Char) : List Char → Option Nat
  | [] => if mark.isEmpty then some 0 else none
  | c :: rest =>
    if mark.isPrefixOf (c :: rest) then some 0 else (indexOf? mark rest).map (· + 1)

/-- The offset of the bracket that ends a tag: the first one outside quotes. -/
def tagEnd? (quote : Option Char) : List Char → Option Nat
  | [] => none
  | c :: rest =>
    match quote with
    | some mark => (tagEnd? (if c = mark then none else quote) rest).map (· + 1)
    | none =>
      if c = '>' then some 0
      else (tagEnd? (if c = '"' || c = '\'' then some c else none) rest).map (· + 1)

/-- The piece whose contents end with the mark, after `skipped` characters. -/
def delimited (skipped : Nat) (mark : List Char) (rest : List Char)
    (make : List Char → Option Piece) : Option (Piece × Nat) := do
  let n ← indexOf? mark (rest.drop skipped)
  let piece ← make ((rest.drop skipped).take n)
  return (piece, skipped + n + mark.length)

/-- The comment whose text this is: two dashes do not occur in it, nor one at its end. -/
def commentOf (content : List Char) : Option Piece :=
  if (indexOf? ['-', '-'] content).isSome || content.getLast? == some '-' then none
  else some .comment

/-- The instruction whose text this is. It starts with a name and a space or the end; the name of
a document's heading is taken, in whatever case. -/
def instructionOf (content : List Char) : Option Piece :=
  let name := content.takeWhile isNameChar
  let rest := content.drop name.length
  if isName name && name.map Char.toLower != ['x', 'm', 'l']
      && (rest.isEmpty || rest.head?.any isSpace) then
    some .instruction
  else none

def literalMark : List Char := "![CDATA[".toList

/-- The piece after an opening angle bracket, and how many characters it takes. -/
def pieceAt (rest : List Char) : Option (Piece × Nat) :=
  if ['!', '-', '-'].isPrefixOf rest then delimited 3 ['-', '-', '>'] rest commentOf
  else if literalMark.isPrefixOf rest then
    delimited literalMark.length [']', ']', '>'] rest fun _ => some .literalSection
  else
    match rest with
    | '?' :: _ => delimited 1 ['?', '>'] rest instructionOf
    | '/' :: _ => delimited 1 ['>'] rest fun content => some (.closing content)
    | _ => do
      let n ← tagEnd? none rest
      return (.opening (rest.take n), n + 1)

def pieces? (text : List Char) : Option (List Piece) :=
  match text with
  | [] => some []
  | '<' :: rest => do
    let (piece, n) ← pieceAt rest
    let later ← pieces? (rest.drop n)
    return piece :: later
  | c :: rest => do
    let n := (rest.takeWhile (· != '<')).length
    let later ← pieces? (rest.drop n)
    return .text (c :: rest.take n) :: later
termination_by text.length
decreasing_by all_goals (simp only [List.length_cons, List.length_drop]; omega)

end DartBindings.Markup
