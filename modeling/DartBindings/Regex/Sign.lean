/-!
Signs: a pattern is written in characters and in pairs of a backslash and a character. A
backslash that ends the text has no partner; no pattern is written so.
-/

set_option autoImplicit false

namespace DartBindings.Regex

/-- A unit of a written pattern. -/
inductive Sign where
  | plain (c : Char)
  /-- A backslash and the character after it. -/
  | escaped (c : Char)
  /-- A backslash at the end of the text. -/
  | dangling
  deriving DecidableEq, Repr

def Sign.text : Sign → List Char
  | .plain c => [c]
  | .escaped c => ['\\', c]
  | .dangling => ['\\']

def signs : List Char → List Sign
  | [] => []
  | ['\\'] => [.dangling]
  | '\\' :: c :: rest => .escaped c :: signs rest
  | c :: rest => .plain c :: signs rest

def written (signs : List Sign) : List Char :=
  signs.flatMap Sign.text

/-- The characters in front that stand for themselves and pass the test. -/
def plainRun (test : Char → Bool) : List Sign → List Char
  | .plain c :: rest => if test c then c :: plainRun test rest else []
  | _ => []

/-- What is left to read of a written pattern, and the position where it starts. -/
structure Input where
  position : Nat
  rest : List Sign

def Input.skip (input : Input) (n : Nat) : Input :=
  ⟨input.position + (written (input.rest.take n)).length, input.rest.drop n⟩

end DartBindings.Regex
