import DartBindings.Markup.Element
import DartBindings.Markup.Encoding
import DartBindings.Markup.Heading
import DartBindings.Markup.TypeDeclaration

/-!
Documents: from the bytes of a file to its root element. A document has one root element, every
element is closed by a tag of its own name, and nothing but spaces, comments and instructions
stands around the root and its type declaration.
-/

set_option autoImplicit false

namespace DartBindings.Markup

open Text

/-! ## Characters -/

/-- Each unit of the bytes as the character of its number. -/
def Encoding.unitChars (encoding : Encoding) (bytes : List UInt8) : List Char :=
  match encoding with
  | .utf16 bigEndian => (units16 bigEndian bytes).map Char.ofNat
  | _ => bytes.map fun byte => Char.ofNat byte.toNat

structure WrittenDocument where
  standsAlone : Bool
  /-- What comes after the heading, with a line feed for every line break. -/
  text : List Char

def WrittenDocument.decode (encoding : Encoding) (standsAlone : Bool) (bytes : List UInt8) :
    Except DocumentError WrittenDocument :=
  match encoding.decode? bytes with
  | none => .error .malformed
  | some text =>
    if text.all isMarkupChar then .ok ⟨standsAlone, unifyLineBreaks text⟩ else .error .malformed

/-- The document that the bytes are, as characters. -/
def WrittenDocument.ofBytes (bytes : List UInt8) : Except DocumentError WrittenDocument :=
  let (shown, bytes) := Encoding.detect bytes
  match headingContent? (shown.unitChars bytes) with
  | none => decode shown false bytes
  | some (content, n) =>
    match Heading.ofContent? content with
    | none => .error .malformed
    | some heading => do
      let encoding ←
        match heading.encoding with
        | none => .ok shown
        | some name => shown.declared name
      decode encoding heading.standsAlone (bytes.drop (n * shown.unitSize))

/-! ## Content -/

/-- The mark that ends a literal section; no text holds it. -/
def sectionEnd : List Char := [']', ']', '>']

/-- The pieces for which the references in a text stand; `inner` gives those of an entity's
text. -/
def referredPieces? (entities : Entities) (inner : List Char → Option (List Piece))
    (text : List Char) : Option (List Piece) :=
  match text with
  | [] => some []
  | '&' :: rest => do
    let name ← referenceName? rest
    let later ← referredPieces? entities inner (rest.drop (name.length + 1))
    match ← entities.referent? name with
    | .char _ => return later
    | .text replacement => return (← inner replacement) ++ later
    | _ => failure
  | _ :: rest => referredPieces? entities inner rest
termination_by text.length
decreasing_by all_goals (simp only [List.length_cons, List.length_drop]; omega)

/-- The pieces, each text with the pieces after it that its references stand for. -/
def expandPieces? (entities : Entities) (inner : List Char → Option (List Piece))
    (pieces : List Piece) : Option (List Piece) := do
  let expanded ← pieces.mapM fun piece =>
    match piece with
    | .text content =>
      if (indexOf? sectionEnd content).isSome then none
      else (referredPieces? entities inner content).map (piece :: ·)
    | _ => some [piece]
  return expanded.flatten

/-- The pieces close the elements that they open, and `depth` more. -/
def isBalanced (depth : Nat) : List Piece → Bool
  | [] => depth == 0
  | .opening content :: rest => isBalanced (if isEmptyTag content then depth else depth + 1) rest
  | .closing _ :: rest => depth != 0 && isBalanced (depth - 1) rest
  | _ :: rest => isBalanced depth rest

/-- The pieces with those that their references stand for. The text of an entity closes what it
opens; entities nest at most `depth` deep. -/
def expandWithin? (entities : Entities) (depth : Nat) (pieces : List Piece) :
    Option (List Piece) :=
  match depth with
  | 0 => expandPieces? entities (fun _ => none) pieces
  | depth + 1 =>
    let inner := fun replacement => do
      let pieces ← pieces? replacement
      if isBalanced 0 pieces then expandWithin? entities depth pieces else none
    expandPieces? entities inner pieces

/-! ## Elements -/

/-- An element that is not closed yet, its children the latest first. -/
structure OpenElement where
  written : QualifiedName
  element : Element
  scope : Scope

/-- How far a document has been read: the elements that are open, the inmost first, and the root
once it is closed. -/
structure Reading where
  stack : List OpenElement
  root : Option Element

def Reading.scope (reading : Reading) : Scope :=
  match reading.stack with
  | [] => .initial
  | inmost :: _ => inmost.scope

/-- Adds a closed element: to the one around it, or as the root. -/
def Reading.add (reading : Reading) (element : Element) : Reading :=
  match reading.stack with
  | [] => { reading with root := some element }
  | inmost :: outer =>
    let around := { inmost.element with children := element :: inmost.element.children }
    { reading with stack := { inmost with element := around } :: outer }

def Element.inOrder (element : Element) : Element :=
  { element with children := element.children.reverse }

def Reading.open? (definitions : Definitions) (reading : Reading) (content : List Char) :
    Option Reading := do
  let tag ← tag? content
  let attributes ← definitions.attributes? tag
  let scope ← reading.scope.declareAll? attributes
  let element : Element :=
    ⟨← scope.elementName? tag.name, ← scope.readAttributes? attributes, []⟩
  if reading.root.isSome then failure
  if isEmptyTag content then return reading.add element
  return { reading with stack := ⟨tag.name, element, scope⟩ :: reading.stack }

def Reading.close? (reading : Reading) (content : List Char) : Option Reading := do
  let name ← closingName? content
  match reading.stack with
  | [] => failure
  | inmost :: outer =>
    if inmost.written != name then failure
    return { reading with stack := outer }.add inmost.element.inOrder

def Reading.piece? (definitions : Definitions) (reading : Reading) : Piece → Option Reading
  | .text content =>
    if reading.stack.isEmpty && !(content.all isSpace) then none else some reading
  | .literalSection => if reading.stack.isEmpty then none else some reading
  | .comment | .instruction => some reading
  | .opening content => reading.open? definitions content
  | .closing content => reading.close? content

def Reading.pieces? (definitions : Definitions) (reading : Reading) :
    List Piece → Option Reading
  | [] => some reading
  | piece :: rest => (reading.piece? definitions piece).bind fun reading =>
      reading.pieces? definitions rest

/-- The root element of a document of so many bytes. -/
def WrittenDocument.root? (document : WrittenDocument) (size : Nat) : Option Element := do
  let (symbols, body) ← symbols? document.text
  let definitions ← (Definitions.initial document.standsAlone size).ofSymbols? symbols
  let pieces ← pieces? body
  let _ ← definitions.pay? pieces
  let expanded ← expandWithin? definitions.known definitions.entities.length pieces
  let reading ← Reading.pieces? definitions ⟨[], none⟩ expanded
  if !reading.stack.isEmpty then failure
  reading.root

def document (bytes : List UInt8) : Except DocumentError Element := do
  let written ← WrittenDocument.ofBytes bytes
  match written.root? bytes.length with
  | some root => return root
  | none => throw .malformed

end DartBindings.Markup
