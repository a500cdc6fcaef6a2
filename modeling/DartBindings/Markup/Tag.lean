import DartBindings.Markup.Reference

/-!
Tags: the qualified name and the attributes that a tag holds.
-/

set_option autoImplicit false

namespace DartBindings.Markup

/-- A name with the qualifier before its colon, if it has one. -/
structure QualifiedName where
  qualifier : Option (List Char)
  localName : List Char
  deriving DecidableEq, Repr

/-- A text cut at its first colon. -/
def QualifiedName.ofText (text : List Char) : QualifiedName :=
  let first := text.takeWhile (· != ':')
  match text.drop first.length with
  | [] => ⟨none, first⟩
  | _ :: second => ⟨some first, second⟩

def qualifiedName? (text : List Char) : Option QualifiedName :=
  let name := QualifiedName.ofText text
  if name.qualifier.all isName && isName name.localName then some name else none

/-- An attribute as it is written: its name, and the text between its quotes. -/
structure WrittenAttribute where
  name : QualifiedName
  content : List Char
  deriving DecidableEq, Repr

def spaceLength (text : List Char) : Nat :=
  (text.takeWhile isSpace).length

/-- Characters of which a name with its qualifier may consist. -/
def isTagNameChar (c : Char) : Bool :=
  isNameChar c || c == ':'

/-- The attribute that starts the text, and how many characters it takes. Spaces may stand
around the equals sign. -/
def attributeAt (text : List Char) : Option (WrittenAttribute × Nat) := do
  let written := text.takeWhile isTagNameChar
  let name ← qualifiedName? written
  let rest := text.drop written.length
  let before := spaceLength rest
  let rest := rest.drop before
  if rest.head? != some '=' then failure
  let after := spaceLength (rest.drop 1)
  match (rest.drop 1).drop after with
  | [] => failure
  | mark :: rest =>
    if mark != '"' && mark != '\'' then failure
    let content := rest.takeWhile (· != mark)
    if content.length == rest.length then failure
    return (⟨name, content⟩, written.length + before + 1 + after + 1 + content.length + 1)

/-- The attributes of a tag, each after at least one space. -/
def attributes? (text : List Char) : Option (List WrittenAttribute) :=
  match text with
  | [] => some []
  | c :: rest =>
    if !isSpace c then none
    else
      let spaces := spaceLength rest
      if spaces == rest.length then some []
      else do
        let (first, n) ← attributeAt (rest.drop spaces)
        let later ← attributes? (rest.drop (spaces + n))
        return first :: later
termination_by text.length
decreasing_by simp only [List.length_cons, List.length_drop]; omega

structure Tag where
  name : QualifiedName
  attributes : List WrittenAttribute
  deriving DecidableEq, Repr

/-- The content of an opening tag ends with the mark of an element without content. -/
def isEmptyTag (content : List Char) : Bool :=
  content.getLast? == some '/'

def tag? (content : List Char) : Option Tag := do
  let content := if isEmptyTag content then content.dropLast else content
  let written := content.takeWhile isTagNameChar
  let name ← qualifiedName? written
  let attributes ← attributes? (content.drop written.length)
  return ⟨name, attributes⟩

/-- The name in a closing tag, which spaces may follow. -/
def closingName? (content : List Char) : Option QualifiedName := do
  let written := content.takeWhile isTagNameChar
  let name ← qualifiedName? written
  if (content.drop written.length).all isSpace then return name
  failure

end DartBindings.Markup
