import DartBindings.Declaration.Header
import DartBindings.Declaration.Parameters
import DartBindings.Source.TypeText

/-!
Signatures: the parameters and the return type after a member's name, and the callable that a
member with that signature is exposed as.
-/

set_option autoImplicit false

namespace DartBindings.Declaration

open Text Source Bridge

def lastComponent (text : List Char) : List Char :=
  (text.reverse.takeWhile fun c => c != '.').reverse

/-- A type spelling without blanks and marks of an optional type at its end. -/
def withoutOptionalMarks (type : List Char) : List Char :=
  strip (dropEndWhile (fun c => c == '?' || c == '!') (strip type))

/-- A parameter of this type receives a stream. Qualifiers and marks of an optional type make
no difference. -/
def isSink (parameter : Parameter) : Bool :=
  sinkTypes.contains
    (String.ofList (lastComponent (withoutOptionalMarks parameter.sourceType.toList)))

/-- The text before the first clause of generic constraints. -/
def beforeConstraints : List Char → List Char
  | [] => []
  | c :: rest =>
    if " where ".toList.isPrefixOf (c :: rest) then [] else c :: beforeConstraints rest

/-- The return type whose text starts at `pos`, without generic constraints. -/
def returnTypeAt (text : List Char) (pos stop : Nat) : String :=
  String.ofList (strip (beforeConstraints (captureType text pos stop).1))

/-- The first token at or after `pos` that states no effect. -/
def afterEffects (effects : List String) (text : List Char) (pos stop : Nat) : Option Token :=
  match _read : nextToken text pos stop with
  | none => none
  | some token =>
    if effects.contains token.value then afterEffects effects text token.stop stop
    else some token
termination_by stop - pos
decreasing_by
  have := nextToken_advances _read
  omega

/-- The return type after `mark`, if that is what the token is; blank otherwise. -/
def returnTypeAfter (mark : String) (text : List Char) (stop : Nat) : Option Token → String
  | some token => if token.value == mark then returnTypeAt text token.stop stop else ""
  | none => ""

/-- The return type that a member states at `pos`; blank if it states none. -/
def ReturnStyle.read (style : ReturnStyle) (text : List Char) (pos stop : Nat) :
    Except ReadError String :=
  match style with
  | .colon => .ok (returnTypeAfter ":" text stop (nextToken text pos stop))
  | .arrow effects => .ok (returnTypeAfter "->" text stop (afterEffects effects text pos stop))
  | .unstated => .error .unstatedReturn

structure Signature where
  parameters : List Parameter
  returnType : String
  deriving DecidableEq, Repr

/-- The signature that starts at `pos`. There is none where no parameter list in parentheses
follows, or where it is never closed. -/
def Dialect.signature? (dialect : Dialect) (text : List Char) (pos stop : Nat) :
    Except ReadError (Option Signature) :=
  match nextToken text pos stop with
  | none => .ok none
  | some token =>
    if token.value != "(" then .ok none
    else
      match groupBody text token.stop '(' ')' with
      | .error _ => .ok none
      | .ok body => do
        let parameters ← parameters body
        let stated ← dialect.returns.read text (token.stop + body.length + 1) stop
        return some ⟨parameters, if stated.isEmpty then dialect.voidType else stated⟩

/-- The markers and modifiers of a member let it be exposed as a call. In a marked class they
must not exempt it; elsewhere it needs a marker of its own. -/
def Dialect.exposesCall (dialect : Dialect) (wholeClass : Bool) (member : Header) : Bool :=
  if wholeClass then
    !member.markers.contains dialect.exemptMarker
      && !dialect.restricted.any member.modifiers.contains
  else member.markers.contains dialect.memberMarker

/-- The callable that a member with this signature is exposed as. One that takes a sink is a
stream and needs no marker. -/
def Dialect.expose (dialect : Dialect) (wholeClass : Bool) (member : Header)
    (signature : Signature) : Option Callable :=
  if signature.parameters.any isSink then
    some ⟨.subscription, dialect.streamName member.name, signature.returnType,
      signature.parameters.filter fun parameter => !isSink parameter⟩
  else if dialect.exposesCall wholeClass member then
    some ⟨.call, member.name, signature.returnType, signature.parameters⟩
  else none

/-- The callable that a member of a class is exposed as, if it is. A member of the class itself
is not even read. -/
def Dialect.callable? (dialect : Dialect) (text : List Char) (wholeClass : Bool) (stop : Nat)
    (member : Header) : Except ReadError (Option Callable) :=
  if dialect.typeLevel.any member.modifiers.contains then .ok none
  else do
    let signature ← dialect.signature? text member.stop stop
    return signature.bind (dialect.expose wholeClass member)

end DartBindings.Declaration
