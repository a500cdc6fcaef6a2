import DartBindings.Markup.Definition

/-!
Elements: the tree of a document. The name of an element or an attribute that belongs to a
namespace is the namespace in braces before its local name.
-/

set_option autoImplicit false

namespace DartBindings.Markup

/-- An element with its attributes and the elements directly in it, in order. -/
structure Element where
  name : String
  attributes : List (String × String)
  children : List Element
  deriving Repr

def Element.get? (element : Element) (name : String) : Option String :=
  element.attributes.lookup name

def Element.childrenNamed (element : Element) (name : String) : List Element :=
  element.children.filter fun child => child.name == name

/-! ## Namespaces -/

/-- The namespaces in force, by their qualifiers, the inmost first. The empty qualifier stands
for elements without one; the empty namespace is none. -/
abbrev Scope := List (List Char × List Char)

/-- The namespace that is bound to the qualifier `xml` everywhere. -/
def fixedNamespace : List Char := "http://www.w3.org/XML/1998/namespace".toList

/-- The namespace of namespace declarations. -/
def declarationNamespace : List Char := "http://www.w3.org/2000/xmlns/".toList

def Scope.initial : Scope := [(['x', 'm', 'l'], fixedNamespace)]

/-- The name for namespace declarations. -/
def declarationName : List Char := ['x', 'm', 'l', 'n', 's']

/-- The qualifier that an attribute binds, if it declares a namespace. -/
def boundQualifier? (name : QualifiedName) : Option (List Char) :=
  match name.qualifier with
  | none => if name.localName == declarationName then some [] else none
  | some qualifier => if qualifier == declarationName then some name.localName else none

/-- The scope with a further namespace in force. The reserved qualifiers and namespaces keep
their meanings, and only the absence of a qualifier can be bound to no namespace. -/
def Scope.declare? (scope : Scope) (qualifier uri : List Char) : Option Scope :=
  if qualifier == declarationName || uri == declarationNamespace then none
  else if (qualifier == ['x', 'm', 'l']) != (uri == fixedNamespace) then none
  else if (uri.isEmpty && !qualifier.isEmpty) || uri.contains '\x7d' then none
  else some ((qualifier, uri) :: scope)

/-- A local name in a namespace. -/
def expanded (uri localName : List Char) : String :=
  String.ofList (if uri.isEmpty then localName else '\x7b' :: (uri ++ '\x7d' :: localName))

def Scope.elementName? (scope : Scope) (name : QualifiedName) : Option String :=
  match name.qualifier with
  | none => some (expanded ((scope.lookup []).getD []) name.localName)
  | some qualifier => (scope.lookup qualifier).map fun uri => expanded uri name.localName

/-- The full name of an attribute; without a qualifier it is in no namespace. -/
def Scope.attributeName? (scope : Scope) (name : QualifiedName) : Option String :=
  match name.qualifier with
  | none => some (String.ofList name.localName)
  | some qualifier => (scope.lookup qualifier).map fun uri => expanded uri name.localName

/-- The scope after the namespace declarations among the attributes. -/
def Scope.declareAll? (scope : Scope) : List ReadAttribute → Option Scope
  | [] => some scope
  | (name, value) :: rest =>
    match boundQualifier? name with
    | none => scope.declareAll? rest
    | some qualifier => (scope.declare? qualifier value).bind fun scope => scope.declareAll? rest

def allDistinct {α : Type} [BEq α] : List α → Bool
  | [] => true
  | a :: rest => !rest.contains a && allDistinct rest

/-- The full names and values of the attributes that declare no namespace. No name occurs
twice, neither as it is written nor in full. -/
def Scope.readAttributes? (scope : Scope) (attributes : List ReadAttribute) :
    Option (List (String × String)) := do
  if !allDistinct (attributes.map (·.1)) then failure
  let plain := attributes.filter fun (name, _) => (boundQualifier? name).isNone
  let found ← plain.mapM fun (name, value) => do
    return (← scope.attributeName? name, String.ofList value)
  if allDistinct (found.map (·.1)) then return found
  failure

end DartBindings.Markup
