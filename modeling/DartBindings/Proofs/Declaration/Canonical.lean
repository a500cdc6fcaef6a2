import DartBindings.Proofs.Declaration.Spelling

/-!
Source files in canonical form: descriptions of classes, the text they are written as, and the
entities that the rules of exposure make of them. Nothing here reads a text.
-/

set_option autoImplicit false

namespace DartBindings.Declaration

open Text Source Bridge

/-! ## Descriptions -/

/-- The markers that a member may carry. -/
inductive Marking where
  | member
  | exemption
  deriving DecidableEq, Repr

structure ParameterText where
  name : String
  type : TypeTree
  deriving Repr

structure MemberText where
  markings : List Marking
  modifiers : List String
  name : String
  parameters : List ParameterText
  result : Option TypeTree
  deriving Repr

/-- A class, marked as a whole or not. -/
structure ClassText where
  marked : Bool
  name : String
  members : List MemberText
  deriving Repr

/-! ## Writing -/

/-- What the canonical form leaves open: the blanks before a member, those after the colon of a
return type, the line breaks between classes, and those at the end of the file. -/
structure Layout where
  indent : Nat
  gap : Nat
  breaks : Nat
  ending : Nat
  deriving Repr

def Marking.marker (dialect : Dialect) : Marking → String
  | .member => dialect.memberMarker
  | .exemption => dialect.exemptMarker

def ParameterText.spelling (parameter : ParameterText) : List Char :=
  listed ':' [parameter.name.toList, parameter.type.spelling]

def MemberText.list (member : MemberText) : List Char :=
  listed ',' (member.parameters.map ParameterText.spelling)

/-- What follows the parameter list up to the body. -/
def ReturnStyle.spelling (style : ReturnStyle) (layout : Layout) : Option TypeTree → List Char
  | none => []
  | some type =>
    match style with
    | .colon => ':' :: (List.replicate layout.gap ' ' ++ type.spelling)
    | .arrow _ => " -> ".toList ++ type.spelling
    | .unstated => []

/-- The markers and modifiers of a member, each with a blank after it. -/
def MemberText.prelude (dialect : Dialect) (member : MemberText) : List Char :=
  (member.markings.flatMap fun marking =>
      '@' :: ((marking.marker dialect).toList ++ [' '])) ++
    member.modifiers.flatMap fun modifier => modifier.toList ++ [' ']

/-- The text between the name of a member and its body. -/
def MemberText.tail (dialect : Dialect) (layout : Layout) (member : MemberText) : List Char :=
  '(' :: (member.list ++ ')' :: dialect.returns.spelling layout member.result)

/-- A member on a line of its own, after the line break. -/
def MemberText.spelling (dialect : Dialect) (layout : Layout) (member : MemberText) : List Char :=
  '\n' :: (List.replicate layout.indent ' ' ++ (member.prelude dialect ++
    (dialect.memberKeyword.toList ++ ' ' :: (member.name.toList ++
      (member.tail dialect layout ++ emptyBody)))))

/-- The line with the marker of a marked class. -/
def ClassText.markerLine (dialect : Dialect) (entry : ClassText) : List Char :=
  if entry.marked then '@' :: (dialect.classMarker.toList ++ ['\n']) else []

/-- The text between the braces of a class. -/
def ClassText.body (dialect : Dialect) (layout : Layout) (entry : ClassText) : List Char :=
  entry.members.flatMap (MemberText.spelling dialect layout) ++ ['\n']

def ClassText.spelling (dialect : Dialect) (layout : Layout) (entry : ClassText) : List Char :=
  entry.markerLine dialect ++ (classKeyword.toList ++ ' ' :: (entry.name.toList ++
    ' ' :: '\x7b' :: (entry.body dialect layout ++ ['\x7d'])))

/-- A file with these classes, in order. -/
def written (dialect : Dialect) (layout : Layout) : List ClassText → List Char
  | [] => List.replicate layout.ending '\n'
  | entry :: rest =>
    entry.spelling dialect layout ++
      (List.replicate (if rest.isEmpty then 0 else layout.breaks) '\n' ++
        written dialect layout rest)

/-! ## What is exposed -/

/-- The parameter as it is declared. -/
def ParameterText.declared (parameter : ParameterText) : Parameter :=
  ⟨parameter.name, String.ofList parameter.type.spelling⟩

/-- The type that a member returns; the dialect's own if it states none. -/
def MemberText.returned (dialect : Dialect) (member : MemberText) : String :=
  match member.result with
  | some type => String.ofList type.spelling
  | none => dialect.voidType

/-- A member of a marked class is a call unless it is exempt or restricted, and one of another
class only by its own marker. -/
def MemberText.isCall (dialect : Dialect) (marked : Bool) (member : MemberText) : Bool :=
  if marked then
    decide (.exemption ∉ member.markings ∧ ∀ modifier ∈ member.modifiers,
      modifier ∉ dialect.restricted)
  else decide (.member ∈ member.markings)

/-- A member with a sink among its parameters is a subscription, which loses the sinks. No member
of the class itself is exposed. -/
def MemberText.callable? (dialect : Dialect) (marked : Bool) (member : MemberText) :
    Option Callable :=
  if ∃ modifier ∈ member.modifiers, modifier ∈ dialect.typeLevel then none
  else if ∃ parameter ∈ member.parameters, parameter.type.isSink then
    some ⟨.subscription, dialect.streamName member.name, member.returned dialect,
      (member.parameters.filter fun parameter => !parameter.type.isSink).map
        ParameterText.declared⟩
  else if member.isCall dialect marked then
    some ⟨.call, member.name, member.returned dialect,
      member.parameters.map ParameterText.declared⟩
  else none

/-- The exposed members of a class, in order. -/
def ClassText.callables (dialect : Dialect) (entry : ClassText) : List Callable :=
  entry.members.filterMap (MemberText.callable? dialect entry.marked)

/-- A class with no exposed member is no entity. -/
def ClassText.entity? (dialect : Dialect) (entry : ClassText) : Option Entity :=
  let callables := entry.callables dialect
  if callables.isEmpty then none else some ⟨entry.name, callables, dialect.origin⟩

/-! ## Canonical form -/

/-- The name of a class or a member: a word that starts no declaration. -/
structure IsName (name : String) : Prop where
  word : IsWord name.toList
  free : name ∉ declarationWords

/-- The name and the type are written with words only. -/
structure ParameterText.Spelled (parameter : ParameterText) : Prop where
  name : IsWord parameter.name.toList
  type : parameter.type.WellNamed

structure MemberText.Canonical (dialect : Dialect) (member : MemberText) : Prop where
  modifiers : ∀ modifier ∈ member.modifiers, modifier ∈ dialect.modifiers
  name : IsName member.name
  parameters : ∀ parameter ∈ member.parameters, parameter.Spelled
  result : ∀ type ∈ member.result, type.WellNamed

structure ClassText.Canonical (dialect : Dialect) (entry : ClassText) : Prop where
  name : IsName entry.name
  exposable : ∀ ending ∈ dialect.exemptEndings, ¬ ending.toList <:+ entry.name.toList
  members : ∀ member ∈ entry.members, member.Canonical dialect
  distinct : ((entry.callables dialect).map (·.name)).Nodup

end DartBindings.Declaration
