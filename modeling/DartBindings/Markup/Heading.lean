import DartBindings.Markup.Piece
import DartBindings.Markup.Tag

/-!
Headings: the declaration that may stand at the very start of a document. It states a version,
then perhaps an encoding, then perhaps whether the document stands alone.
-/

set_option autoImplicit false

namespace DartBindings.Markup

structure Heading where
  encoding : Option String
  standsAlone : Bool
  deriving DecidableEq, Repr

def isHeadingChar (c : Char) : Bool :=
  c.isAlphanum || c == '.' || c == '-' || c == '_'

/-- What comes after the version in a heading, by names and values. -/
def Heading.ofFields? : List (String × String) → Option Heading
  | [] => some ⟨none, false⟩
  | [("encoding", name)] =>
    if name.toList.head?.any Char.isAlpha then some ⟨some name, false⟩ else none
  | [("standalone", "yes")] => some ⟨none, true⟩
  | [("standalone", "no")] => some ⟨none, false⟩
  | [("encoding", name), ("standalone", answer)] =>
    if name.toList.head?.any Char.isAlpha && (answer == "yes" || answer == "no") then
      some ⟨some name, answer == "yes"⟩
    else none
  | _ => none

/-- The heading with this content, after its name. -/
def Heading.ofContent? (content : List Char) : Option Heading := do
  let fields ← attributes? content
  if fields.any fun field => field.name.qualifier.isSome then failure
  if !(fields.all fun field => field.content.all isHeadingChar) then failure
  match fields.map fun field =>
      (String.ofList field.name.localName, String.ofList field.content) with
  | ("version", _) :: rest => ofFields? rest
  | _ => failure

/-- The content of the heading that starts a text, after its name, and the length of the heading;
`none` if the text starts with none. -/
def headingContent? (text : List Char) : Option (List Char × Nat) :=
  match text with
  | '<' :: '?' :: 'x' :: 'm' :: 'l' :: rest =>
    if rest.head?.any fun c => isSpace c || c == '?' then
      (indexOf? ['?', '>'] rest).map fun n => (rest.take n, n + 7)
    else none
  | _ => none

end DartBindings.Markup
