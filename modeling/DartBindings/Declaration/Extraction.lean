import DartBindings.Declaration.Signature
import DartBindings.Text.Raw

/-!
Extraction: the entities that the text of a source file declares.

An exposed class becomes an entity if it has an exposed member. Of the members of one name only
the first is kept, and each later one is reported. A class body that is never closed runs to the
end of the text and is reported too. Reports made before a failure are not lost with it.
-/

set_option autoImplicit false

namespace DartBindings.Declaration

open Text Source Bridge

/-- What an extraction reports without failing. -/
inductive Warning where
  | unclosedBody (file : Option RawText) (className : String)
  | duplicateMember (className memberName : String)
  deriving DecidableEq, Repr

/-- The text of a report. A file without a name is not mentioned. -/
def Warning.message : Warning → RawText
  | .unclosedBody file className =>
    let location : RawText :=
      match file with
      | some name => if name.isEmpty then [] else name ++ (": " : RawText)
      | none => []
    location ++ RawText.ofString
      ("unbalanced braces in class " ++ className ++ ", body runs to end of file")
  | .duplicateMember className memberName =>
    "Duplicate member " ++ className ++ "." ++ memberName
      ++ " ignored (overloads are not supported)"

/-- The reports of an extraction, and what it found or why it failed. -/
structure Extraction (α : Type) where
  warnings : List Warning
  result : Except ReadError α

/-- An extraction that finds `value` without a report. -/
def Extraction.found {α : Type} (value : α) : Extraction α := ⟨[], .ok value⟩

/-- Goes on with what was found, after the reports made so far. -/
def Extraction.andThen {α β : Type} (first : Extraction α) (next : α → Extraction β) :
    Extraction β :=
  match first.result with
  | .ok value =>
    let second := next value
    ⟨first.warnings ++ second.warnings, second.result⟩
  | .error cause => ⟨first.warnings, .error cause⟩

def Extraction.map {α β : Type} (change : α → β) (extraction : Extraction α) : Extraction β :=
  ⟨extraction.warnings, extraction.result.map change⟩

/-- What stands between the name of a class and its body: the offset after the brace that opens
the body, if there is one, and the words before it. -/
structure Opening where
  body : Option Nat
  words : List String
  deriving DecidableEq, Repr

/-- A token after which a class has no body. -/
def endsHeader (token : Token) : Bool :=
  token.value == "\x7d" || token.value == "=" || token.value == ";"
    || (token.kind == .word && declarationWords.contains token.value)

/-- The offset after a token of a class header, or after the parenthesis or the type arguments
that the token opens. -/
def afterHeaderToken (text : List Char) (token : Token) : Nat :=
  if token.value == "(" then skipGroup text token.stop text.length '(' ')'
  else if token.value == "<" then skipGroup text token.stop text.length '<' '>'
  else token.stop

theorem lt_afterHeaderToken {text : List Char} {pos : Nat} {token : Token}
    (read : nextToken text pos text.length = some token) :
    pos < afterHeaderToken text token := by
  obtain ⟨before, inside⟩ := nextToken_advances read
  unfold afterHeaderToken
  split
  · exact lt_skipGroup before inside
  · split
    · exact lt_skipGroup before inside
    · exact before

/-- The opening of the class body after `pos`. -/
def opening (text : List Char) (pos : Nat) : Opening :=
  match _read : nextToken text pos text.length with
  | none => ⟨none, []⟩
  | some token =>
    if token.value == "\x7b" then ⟨some token.stop, []⟩
    else if endsHeader token then ⟨none, []⟩
    else
      let rest := opening text (afterHeaderToken text token)
      if token.kind == .word && token.value != "(" && token.value != "<" then
        ⟨rest.body, token.value :: rest.words⟩
      else rest
termination_by text.length - pos
decreasing_by
  have := lt_afterHeaderToken _read
  have := (nextToken_advances _read).2
  omega

/-- The callables that the members of a class are exposed as. `taken` are the names that
earlier members have. -/
def callables (dialect : Dialect) (text : List Char) (className : String) (wholeClass : Bool)
    (stop : Nat) (taken : List String) : List Header → Extraction (List Callable)
  | [] => .found []
  | member :: rest =>
    if member.keyword != dialect.memberKeyword then
      callables dialect text className wholeClass stop taken rest
    else
      match dialect.callable? text wholeClass stop member with
      | .error cause => ⟨[], .error cause⟩
      | .ok none => callables dialect text className wholeClass stop taken rest
      | .ok (some callable) =>
        if taken.contains callable.name then
          let later := callables dialect text className wholeClass stop taken rest
          ⟨.duplicateMember className callable.name :: later.warnings, later.result⟩
        else
          (callables dialect text className wholeClass stop (callable.name :: taken) rest).map
            (callable :: ·)

/-- The end of the class body that starts at `start`, with a report if it is never closed. -/
def bodyStop (text : List Char) (file : Option RawText) (className : String) (start : Nat) :
    Extraction Nat :=
  match findClosing text start '\x7b' '\x7d' with
  | .ok stop => .found stop
  | .error _ => ⟨[.unclosedBody file className], .ok text.length⟩

/-- The entity that a class becomes, if it does. -/
def entity? (dialect : Dialect) (text : List Char) (file : Option RawText) (header : Header) :
    Extraction (Option Entity) :=
  let opening := opening text header.stop
  match opening.body with
  | none => .found none
  | some start =>
    if !dialect.exposes header.name opening.words then .found none
    else
      (bodyStop text file header.name start).andThen fun stop =>
        let wholeClass := header.markers.contains dialect.classMarker
        (callables dialect text header.name wholeClass stop []
            (headers dialect text start stop true)).map fun callables =>
          if callables.isEmpty then none else some ⟨header.name, callables, dialect.origin⟩

def entities (dialect : Dialect) (text : List Char) (file : Option RawText) :
    List Header → Extraction (List Entity)
  | [] => .found []
  | header :: rest =>
    if header.keyword != classKeyword then entities dialect text file rest
    else
      (entity? dialect text file header).andThen fun entity =>
        (entities dialect text file rest).map fun later => entity.toList ++ later

/-- The entities that a text declares, in order. `file` is the name under which reports mention
the text. -/
def extract (dialect : Dialect) (text : List Char) (file : Option RawText) :
    Extraction (List Entity) :=
  entities dialect text file (headers dialect text 0 text.length false)

end DartBindings.Declaration
