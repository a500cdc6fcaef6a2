import DartBindings.Markup.Piece
import DartBindings.Markup.Tag

/-!
Symbols: what stands before the root element of a document, cut into words, literals, brackets
and signs. Spaces between symbols are passed over, but what may follow a word, a literal or a
closing parenthesis directly is limited.
-/

set_option autoImplicit false

namespace DartBindings.Markup

inductive Symbol where
  /-- An angle bracket, an exclamation mark and the word after them. -/
  | opened (keyword : String)
  | closed
  | openBracket
  | closeBracket
  | openGroup
  /-- A closing parenthesis, and the count directly after it. -/
  | closeGroup (count : Option Char)
  | comma
  | bar
  | percent
  | name (text : String)
  /-- A name with a qualifier before its colon. -/
  | qualified (text : String)
  /-- Characters of names that are no name. -/
  | token (text : String)
  /-- A name with or without a qualifier, and the count directly after it. -/
  | counted (text : String)
  /-- A number sign and a name. -/
  | reserved (text : String)
  /-- The text between two quotes. -/
  | literal (content : List Char)
  /-- A percent sign, a name and a semicolon: declarations from elsewhere. -/
  | parameter
  /-- A comment or an instruction. -/
  | aside
  deriving DecidableEq, Repr

/-- The name that a symbol is. -/
def Symbol.tagName? : Symbol → Option QualifiedName
  | .name text | .qualified text => some (QualifiedName.ofText text.toList)
  | _ => none

/-- A sign that says how often something may occur. -/
def isCount (c : Char) : Bool :=
  c == '?' || c == '*' || c == '+'

/-- The symbol of a word without a count. A qualifier and a local name are joined by the only
colon of the word, which is not its end. -/
def wordSymbol (word : List Char) : Symbol :=
  let text := String.ofList word
  if !word.head?.any isNameStart then .token text
  else if word.count ':' == 0 then .name text
  else if word.count ':' == 1 && word.getLast? != some ':' then .qualified text
  else .token text

/-- The word that starts the text. -/
def wordAt (text : List Char) : Option (Symbol × Nat) :=
  let word := text.takeWhile isTagNameChar
  if word.isEmpty then none
  else
    match wordSymbol word, (text.drop word.length).head? with
    | symbol, some c =>
      if isSpace c || [ '>', ')', ',', '|', '[', '%' ].contains c then some (symbol, word.length)
      else if !isCount c then none
      else
        match symbol with
        | .name text | .qualified text => some (.counted text, word.length + 1)
        | _ => none
    | _, none => none

/-- The literal whose quote stands before the text. -/
def literalAt (quote : Char) (rest : List Char) : Option (Symbol × Nat) :=
  let content := rest.takeWhile (· != quote)
  if (rest[content.length + 1]?).any fun c => isSpace c || [ '>', '%', '[' ].contains c then
    some (.literal content, content.length + 2)
  else none

/-- The closing parenthesis before the text. -/
def closeGroupAt (rest : List Char) : Option (Symbol × Nat) :=
  match rest with
  | [] => none
  | c :: _ =>
    if isCount c then some (.closeGroup (some c), 2)
    else if isSpace c || [ '>', ',', '|', ')' ].contains c then some (.closeGroup none, 1)
    else none

/-- What starts with a percent sign before the text. -/
def percentAt (rest : List Char) : Option (Symbol × Nat) :=
  let name := rest.takeWhile isNameChar
  if isName name then
    if rest[name.length]? == some ';' then some (.parameter, name.length + 2) else none
  else if rest.head?.any fun c => isSpace c || c == '%' then some (.percent, 1)
  else none

/-- What starts with a number sign before the text. -/
def reservedAt (rest : List Char) : Option (Symbol × Nat) :=
  let name := rest.takeWhile isNameChar
  if isName name
      && (rest[name.length]?).any fun c => isSpace c || [ ')', '>', '%', '|' ].contains c then
    some (.reserved (String.ofList name), name.length + 1)
  else none

/-- What starts with an angle bracket before the text: a comment, an instruction or the start of
a declaration. -/
def bracketedAt (rest : List Char) : Option (Symbol × Nat) :=
  match rest with
  | '!' :: '-' :: _ | '?' :: _ =>
    match pieceAt rest with
    | some (.comment, n) | some (.instruction, n) => some (.aside, n + 1)
    | _ => none
  | '!' :: word =>
    let keyword := word.takeWhile fun c => c.isAlpha || c == '_'
    if !keyword.isEmpty && (word[keyword.length]?).any isSpace then
      some (.opened (String.ofList keyword), keyword.length + 2)
    else none
  | _ => none

/-- The symbol that starts with `c` before the text, and how many characters it takes. -/
def symbolAt (c : Char) (rest : List Char) : Option (Symbol × Nat) :=
  match c with
  | '"' | '\'' => literalAt c rest
  | '<' => bracketedAt rest
  | '%' => percentAt rest
  | '#' => reservedAt rest
  | ')' => closeGroupAt rest
  | '(' => some (.openGroup, 1)
  | '[' => some (.openBracket, 1)
  | ']' => some (.closeBracket, 1)
  | ',' => some (.comma, 1)
  | '|' => some (.bar, 1)
  | '>' => some (.closed, 1)
  | _ => wordAt (c :: rest)

/-- An angle bracket before this text starts an element. -/
def startsElement (rest : List Char) : Bool :=
  rest.head?.any fun c => c != '!' && c != '?'

/-- The symbols before the first element, and the text from that element on. -/
def symbols? (text : List Char) : Option (List Symbol × List Char) :=
  match text with
  | [] => some ([], [])
  | c :: rest =>
    if isSpace c then symbols? rest
    else if c == '<' && startsElement rest then some ([], c :: rest)
    else do
      let (symbol, n) ← symbolAt c rest
      let (later, body) ← symbols? (rest.drop (n - 1))
      return (symbol :: later, body)
termination_by text.length
decreasing_by all_goals (simp only [List.length_cons, List.length_drop]; omega)

end DartBindings.Markup
