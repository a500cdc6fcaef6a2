import DartBindings.Markup.EntitySize
import DartBindings.Markup.Tag

/-!
Definitions: what a document defines before its root element, the entities and the attributes.
An attribute is defined for the elements of one name: whether its value is tokenized, and the
value it has where none is given.
-/

set_option autoImplicit false

namespace DartBindings.Markup

/-- The types of attributes, as far as they differ. -/
inductive AttributeType where
  | characters
  | identifier
  | tokens
  deriving DecidableEq, Repr

/-- The definition of an attribute, its default as it is written or as it is read. -/
structure AttributeDefinition where
  name : QualifiedName
  type : AttributeType
  default : Option (List Char)
  deriving DecidableEq, Repr

structure Definitions where
  entities : List (List Char × EntityBody)
  /-- The definitions of attributes with the names of their elements, in order. -/
  attributes : List (QualifiedName × AttributeDefinition)
  /-- The document is declared to be understood without what is kept elsewhere. -/
  standsAlone : Bool
  /-- Something is kept elsewhere. -/
  hasOmissions : Bool
  /-- Declarations count, for none that is kept elsewhere goes before them. -/
  isFollowed : Bool
  /-- How many bytes references may still stand for. -/
  allowance : Nat
  deriving DecidableEq, Repr

/-- How many bytes references may stand for in a document of so many. -/
def allowanceOf (size : Nat) : Nat :=
  max 8388607 (100 * size) - size

/-- What is defined before any declaration in a document of so many bytes. -/
def Definitions.initial (standsAlone : Bool) (size : Nat) : Definitions :=
  ⟨[], [], standsAlone, false, true, allowanceOf size⟩

def Definitions.known (definitions : Definitions) : Entities :=
  ⟨definitions.entities, !definitions.hasOmissions || definitions.standsAlone⟩

/-- A declaration that is kept elsewhere. Those after it count only if the document stands
alone. -/
def Definitions.withOmission (definitions : Definitions) : Definitions :=
  { definitions with hasOmissions := true, isFollowed := definitions.standsAlone }

def Definitions.addEntity (definitions : Definitions) (name : List Char) (body : EntityBody) :
    Definitions :=
  if definitions.isFollowed then
    { definitions with entities := definitions.entities ++ [(name, body)] }
  else definitions

def Definitions.attributesOf (definitions : Definitions) (element : QualifiedName) :
    List AttributeDefinition :=
  (definitions.attributes.filter fun (name, _) => name == element).map (·.2)

def Definitions.pay? (definitions : Definitions) (pieces : List Piece) : Option Definitions := do
  let cost ← definitions.known.cost? pieces
  if definitions.allowance < cost then failure
  return { definitions with allowance := definitions.allowance - cost }

/-- The definition of an attribute with its default as it is written. One with a default and
one of an identifier count only if no other goes before them. -/
def Definitions.define? (definitions : Definitions) (element : QualifiedName)
    (written : AttributeDefinition) : Option Definitions := do
  if !definitions.isFollowed then return definitions
  let isTokenized := written.type != .characters
  let paid ← definitions.pay? (written.default.toList.map .text)
  let default ← written.default.mapM (definitions.known.value? isTokenized)
  let isKnown := (definitions.attributesOf element).any (·.name == written.name)
  if isKnown && (default.isSome || written.type == .identifier) then return paid
  return { paid with attributes := paid.attributes ++ [(element, { written with default })] }

/-- The definitions of several attributes of an element. -/
def Definitions.defineAll? (definitions : Definitions) (element : QualifiedName) :
    List AttributeDefinition → Option Definitions
  | [] => some definitions
  | first :: rest => do (← definitions.define? element first).defineAll? element rest

abbrev ReadAttribute := QualifiedName × List Char

/-- The attributes that a tag gives with their values, and after them those that have defaults
and are not given. -/
def Definitions.attributes? (definitions : Definitions) (tag : Tag) :
    Option (List ReadAttribute) := do
  let defined := definitions.attributesOf tag.name
  let given ← tag.attributes.mapM fun written => do
    let definition := defined.find? (·.name == written.name)
    let isTokenized := definition.any (·.type != .characters)
    return (written.name, ← definitions.known.value? isTokenized written.content)
  let names := given.map (·.1)
  let others := (defined.filter fun definition => !names.contains definition.name).filterMap
    fun definition => definition.default.map fun value => (definition.name, value)
  return given ++ others

end DartBindings.Markup
