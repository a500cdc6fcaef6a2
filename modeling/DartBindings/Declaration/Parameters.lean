import DartBindings.Bridge.Entity
import DartBindings.Source.Pieces
import DartBindings.Source.Token

/-!
Parameter lists: a comma separates the parameters, a colon the name from the type, and an equals
sign what precedes from a default value. Comments are dropped first.
-/

set_option autoImplicit false

namespace DartBindings.Declaration

open Text Source Bridge

/-- Why the declarations of a text cannot be read. -/
inductive ReadError where
  /-- A parameter that is nothing but colons has no name to read. -/
  | emptyParameter
  /-- The dialect has no place for the return type of a member. -/
  | unstatedReturn
  deriving DecidableEq, Repr

def ReadError.message : ReadError → String
  | .emptyParameter => "list index out of range"
  | .unstatedReturn => ""

def lastWord (text : List Char) : String :=
  match ((tokens text 0 text.length).filter fun token => token.kind == .word).getLast? with
  | some token => token.value
  | none => ""

/-- The parameter that a piece of a parameter list declares. A piece without a name declares
none. Labels before the name and a default value are dropped. -/
def parameter? (piece : List Char) : Except ReadError (Option Parameter) :=
  match splitTopLevel ['='] piece with
  | [] => .ok none
  | declaration :: _ =>
    match splitTopLevel [':'] declaration with
    | [] => .error .emptyParameter
    | label :: type =>
      let name := lastWord label
      if name.isEmpty then .ok none
      else .ok (some ⟨name, ": ".intercalate (type.map String.ofList)⟩)

def parameters (text : List Char) : Except ReadError (List Parameter) :=
  ((splitTopLevel [','] (stripComments text)).mapM parameter?).map fun found =>
    found.filterMap id

end DartBindings.Declaration
