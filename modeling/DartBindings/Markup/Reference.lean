import DartBindings.Markup.NameChar
import DartBindings.Text.Character

/-!
References: what an ampersand, a name or a number, and a semicolon stand for, and the values of
attributes with their references replaced.
-/

set_option autoImplicit false

namespace DartBindings.Markup

inductive EntityBody where
  | text (replacement : List Char)
  /-- Something that is kept elsewhere. -/
  | elsewhere
  deriving DecidableEq, Repr

/-- The entities that references may name. -/
structure Entities where
  /-- What is declared, by names; the first declaration of a name counts. -/
  declared : List (List Char × EntityBody)
  /-- No declarations are kept elsewhere, so an unknown name is a fault. -/
  isComplete : Bool
  deriving DecidableEq, Repr

inductive Referent where
  | char (c : Char)
  | text (replacement : List Char)
  | elsewhere
  | unknown
  deriving DecidableEq, Repr

/-- The character whose number the digits are. -/
def numberedChar? (base : Nat) (digits : List Char) : Option Char := do
  let c ← Text.charOf? (← Text.numeral? base digits)
  if isMarkupChar c then return c
  failure

/-- The characters that have a name without a declaration. -/
def predefined : List (String × Char) :=
  [("lt", '<'), ("gt", '>'), ("amp", '&'), ("apos", '\''), ("quot", '"')]

def Entities.named (entities : Entities) (name : List Char) : Referent :=
  match predefined.lookup (String.ofList name), entities.declared.lookup name with
  | some c, _ => .char c
  | none, some (.text replacement) => .text replacement
  | none, some .elsewhere => .elsewhere
  | none, none => .unknown

/-- What the text between the ampersand and the semicolon of a reference stands for; `none` if
it is no reference. -/
def Entities.referent? (entities : Entities) : List Char → Option Referent
  | '#' :: 'x' :: digits => (numberedChar? 16 digits).map .char
  | '#' :: digits => (numberedChar? 10 digits).map .char
  | name => if isName name then some (entities.named name) else none

/-- The text of a reference without its semicolon, in what follows the ampersand. -/
def referenceName? (rest : List Char) : Option (List Char) :=
  let name := rest.takeWhile (· != ';')
  if name.length < rest.length then some name else none

/-- The value of an attribute as it is written: each space and each line break is a blank, and
references are replaced; `inner` is the value of an entity's text. -/
def Entities.valueWith (entities : Entities) (inner : List Char → Option (List Char))
    (text : List Char) : Option (List Char) :=
  match text with
  | [] => some []
  | '<' :: _ => none
  | '&' :: rest => do
    let name ← referenceName? rest
    let later ← entities.valueWith inner (rest.drop (name.length + 1))
    match ← entities.referent? name with
    | .char c => return c :: later
    | .text replacement => return (← inner replacement) ++ later
    | .elsewhere => failure
    | .unknown => if entities.isComplete then failure else return later
  | '\r' :: '\n' :: rest => do
    let later ← entities.valueWith inner rest
    return ' ' :: later
  | c :: rest => do
    let later ← entities.valueWith inner rest
    return (if isSpace c then ' ' else c) :: later
termination_by text.length
decreasing_by all_goals (simp only [List.length_cons, List.length_drop]; omega)

/-- The value of an attribute as it is written. Entities nest at most `depth` deep. -/
def Entities.valueWithin (entities : Entities) (depth : Nat) (text : List Char) :
    Option (List Char) :=
  match depth with
  | 0 => entities.valueWith (fun _ => none) text
  | depth + 1 => entities.valueWith (entities.valueWithin depth) text

/-- The value without the blanks at its start and with one blank for several; `isApart` says that
a blank has been passed over that is due before the next word. -/
def joinWords (isStarted isApart : Bool) : List Char → List Char
  | [] => []
  | c :: rest =>
    if c == ' ' then joinWords isStarted true rest
    else
      let later := c :: joinWords true false rest
      if isStarted && isApart then ' ' :: later else later

/-- The value of an attribute as it is written; that of a tokenized one is its words, one blank
between two. -/
def Entities.value? (entities : Entities) (isTokenized : Bool) (text : List Char) :
    Option (List Char) :=
  let value := entities.valueWithin entities.declared.length text
  if isTokenized then value.map (joinWords false false) else value

end DartBindings.Markup
