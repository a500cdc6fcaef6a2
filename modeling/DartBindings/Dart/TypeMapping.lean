import DartBindings.Source.Pieces

/-!
The Dart type of a native type spelling.

Mappings that a user registers come first, then the primitive types, then the few generic
spellings whose element types are kept. Any other map or list loses its element types, and
whatever remains is dynamic.
-/

set_option autoImplicit false

namespace DartBindings.Dart

open Text Source

/-- The Dart type of whatever has no better one. -/
def dynamicType : String := "dynamic"

def voidType : String := "void"

/-- The Dart type of lists whose element type is not kept. -/
def listType : String := "List<dynamic>"

/-- The Dart type of maps whose key and value types are not kept. -/
def mapType : String := "Map<dynamic, dynamic>"

/-- The primitive native types with their Dart types. -/
def primitiveTypes : List (String × String) := [
  ("String", "String"), ("Int", "int"), ("Long", "int"), ("Short", "int"), ("Byte", "int"),
  ("Double", "double"), ("Float", "double"), ("Boolean", "bool"), ("Unit", "void"),
  ("Int32", "int"), ("Int64", "int"), ("UInt", "int"), ("CGFloat", "double"), ("Bool", "bool"),
  ("Void", "void"), ("()", "void")]

/-- The generic native types whose element types are kept, written without blanks. -/
def genericTypes : List (String × String) := [
  ("List<String>", "List<String>"), ("List<Int>", "List<int>"),
  ("Map<String,Any>", "Map<String, dynamic>"), ("[String]", "List<String>"),
  ("[Int]", "List<int>"), ("[String:Any]", "Map<String, dynamic>")]

def listHeads : List String := ["List<", "MutableList<", "ArrayList<", "Array<", "Set<", "["]

def mapHeads : List String := ["Map<", "MutableMap<", "HashMap<", "Dictionary<"]

def beginsWithAny (heads : List String) (text : List Char) : Bool :=
  heads.any fun head => head.toList.isPrefixOf text

/-- A list in brackets with a colon at its top level is a map from keys to values. -/
def isBracketedMap (text : List Char) : Bool :=
  text.head? == some '[' && text.getLast? == some ']'
    && 1 < (splitTopLevel [':'] (text.drop 1).dropLast).length

def isMapType (text : List Char) : Bool :=
  beginsWithAny mapHeads text || isBracketedMap text

def isOptionalMark (c : Char) : Bool :=
  c == '?' || c == '!'

/-- The spelling without surrounding blanks and without one mark of an optional type. -/
def bareType (text : List Char) : List Char :=
  let text := strip text
  match text.getLast? with
  | some c => if isOptionalMark c then strip text.dropLast else text
  | none => text

/-- The Dart type of a bare spelling for which no mapping is registered. -/
def builtinType (bare : List Char) : String :=
  match primitiveTypes.lookup (String.ofList bare) with
  | some type => type
  | none =>
    match genericTypes.lookup (String.ofList (squeeze bare)) with
    | some type => type
    | none =>
      if isMapType bare then mapType
      else if beginsWithAny listHeads bare then listType
      else dynamicType

/-- The registered mappings, from native spellings without blanks to Dart types. Each spelling
occurs once. -/
structure TypeMapping where
  entries : List (String × String)
  deriving DecidableEq, Repr

def TypeMapping.empty : TypeMapping := ⟨[]⟩

/-- Registers a Dart type for a native spelling; an earlier one for the same spelling, up to
blanks, is replaced. -/
def TypeMapping.add (mapping : TypeMapping) (source target : String) : TypeMapping :=
  let key := compact source
  ⟨(key, trimmed target) :: mapping.entries.filter fun entry => entry.1 != key⟩

def TypeMapping.dartType (mapping : TypeMapping) (source : String) : String :=
  let bare := bareType source.toList
  (mapping.entries.lookup (String.ofList (squeeze bare))).getD (builtinType bare)

/-- The Dart type of a spelling that may be absent; an absent one is blank. -/
def TypeMapping.dartTypeOf (mapping : TypeMapping) (source : Option String) : String :=
  mapping.dartType (source.getD "")

/-- The registered mappings in ascending order of their spellings. -/
def TypeMapping.sorted (mapping : TypeMapping) : List (String × String) :=
  mapping.entries.mergeSort fun a b => a.1 ≤ b.1

end DartBindings.Dart
