import DartBindings.Markup.Piece
import DartBindings.Markup.Reference

/-!
Entity sizes: how many bytes the texts come to for which references stand, those counted that
they refer to in turn. An entity has no size if its text is not made of whole pieces, or if it
leads to itself.
-/

set_option autoImplicit false

namespace DartBindings.Markup

def referencesIn : List Char → List (List Char)
  | [] => []
  | '&' :: rest =>
    let name := rest.takeWhile isNameChar
    if !name.isEmpty && rest[name.length]? == some ';' then name :: referencesIn rest
    else referencesIn rest
  | _ :: rest => referencesIn rest

def Piece.references : Piece → List (List Char)
  | .text content | .opening content => referencesIn content
  | _ => []

abbrev Sizes := List (List Char × Nat)

/-- The size of what a name stands for. What is not declared as a text comes to nothing. -/
def Entities.size? (entities : Entities) (sizes : Sizes) (name : List Char) : Option Nat :=
  match entities.named name with
  | .text _ => sizes.lookup name
  | _ => some 0

/-- The size of what the names stand for together. -/
def Entities.total? (entities : Entities) (sizes : Sizes) (names : List (List Char)) :
    Option Nat :=
  (names.mapM (entities.size? sizes)).map fun found => found.foldr (· + ·) 0

def Entities.textSize? (entities : Entities) (sizes : Sizes) (text : List Char) : Option Nat := do
  let inner ← entities.total? sizes ((← pieces? text).flatMap Piece.references)
  return (String.ofList text).utf8ByteSize + inner

/-- The sizes together with those that follow from them. -/
def Entities.moreSizes (entities : Entities) (sizes : Sizes) :
    List (List Char × EntityBody) → Sizes
  | [] => sizes
  | (name, .text replacement) :: rest =>
    match sizes.lookup name, entities.textSize? sizes replacement with
    | none, some size => entities.moreSizes ((name, size) :: sizes) rest
    | _, _ => entities.moreSizes sizes rest
  | _ :: rest => entities.moreSizes sizes rest

/-- All sizes that follow from these in `rounds` rounds. -/
def Entities.sizesFrom (entities : Entities) (rounds : Nat) (sizes : Sizes) : Sizes :=
  match rounds with
  | 0 => sizes
  | rounds + 1 =>
    let more := entities.moreSizes sizes entities.declared
    if more.length == sizes.length then sizes else entities.sizesFrom rounds more

def Entities.sizes (entities : Entities) : Sizes :=
  entities.sizesFrom entities.declared.length []

/-- How many bytes the references in these pieces stand for. -/
def Entities.cost? (entities : Entities) (pieces : List Piece) : Option Nat :=
  match pieces.flatMap Piece.references with
  | [] => some 0
  | names => entities.total? entities.sizes names

end DartBindings.Markup
