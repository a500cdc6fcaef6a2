import DartBindings.Source.Closing

/-!
Splitting a list at its separators, where no bracket is open.

Brackets of four kinds are counted, each kind on its own, and a closing bracket without an
opening one counts for nothing. Literals are passed over whole. The angle that ends an arrow
closes nothing, and after an equals sign outside all brackets (a default value) angles are
comparisons until the next separator.
-/

set_option autoImplicit false

namespace DartBindings.Source

open Text

inductive Bracket where
  | round
  | square
  | curly
  | angle
  deriving DecidableEq, Repr

def Bracket.opened? : Char → Option Bracket
  | '(' => some .round
  | '[' => some .square
  | '{' => some .curly
  | '<' => some .angle
  | _ => none

def Bracket.closed? : Char → Option Bracket
  | ')' => some .round
  | ']' => some .square
  | '}' => some .curly
  | '>' => some .angle
  | _ => none

structure Depths where
  round : Nat
  square : Nat
  curly : Nat
  angle : Nat
  deriving DecidableEq, Repr

def Depths.level : Depths := ⟨0, 0, 0, 0⟩

def Depths.enter (depths : Depths) : Bracket → Depths
  | .round => { depths with round := depths.round + 1 }
  | .square => { depths with square := depths.square + 1 }
  | .curly => { depths with curly := depths.curly + 1 }
  | .angle => { depths with angle := depths.angle + 1 }

/-- One bracket less is open; a kind of which none is open stays at zero. -/
def Depths.leave (depths : Depths) : Bracket → Depths
  | .round => { depths with round := depths.round - 1 }
  | .square => { depths with square := depths.square - 1 }
  | .curly => { depths with curly := depths.curly - 1 }
  | .angle => { depths with angle := depths.angle - 1 }

/-- What the splitter knows of the text before the current character: the open brackets,
whether a default value has begun, and whether the last character was a dash. -/
structure SplitState where
  depths : Depths
  inDefault : Bool
  afterDash : Bool
  deriving DecidableEq, Repr

def SplitState.start : SplitState := ⟨.level, false, false⟩

/-- The state after the character `c`, which is neither a quote nor the start of a cut. -/
def SplitState.step (state : SplitState) (c : Char) : SplitState :=
  let angleIsPlain := state.inDefault || (state.afterDash && c == '>')
  let depths :=
    match Bracket.opened? c, Bracket.closed? c with
    | some .angle, _ => if state.inDefault then state.depths else state.depths.enter .angle
    | some kind, _ => state.depths.enter kind
    | none, some .angle => if angleIsPlain then state.depths else state.depths.leave .angle
    | none, some kind => state.depths.leave kind
    | none, none => state.depths
  ⟨depths, state.inDefault || (c == '=' && state.depths == .level), c == '-'⟩

/-- Whether `c` changes a depth in this state; such a character never starts a separator. -/
def SplitState.isBracket (state : SplitState) (c : Char) : Bool :=
  match Bracket.opened? c, Bracket.closed? c with
  | some .angle, _ => !state.inDefault
  | some _, _ => true
  | none, some .angle => !(state.inDefault || state.afterDash)
  | none, some _ => true
  | none, none => false

/-- The pieces with `taken` put in front of the first one. -/
def extendFirst (taken : List Char) : List (List Char) → List (List Char)
  | [] => [taken]
  | piece :: pieces => (taken ++ piece) :: pieces

def endsWithDash (text : List Char) : Bool :=
  text.getLast? == some '-'

/-- The pieces between the separators at the top level, as they stand in the text. The
separator is not empty. -/
def cutPieces (separator : List Char) (state : SplitState) (text : List Char) :
    List (List Char) :=
  match text with
  | [] => [[]]
  | c :: rest =>
    if isQuote c then
      let n := tailLength c rest
      let taken := c :: rest.take n
      extendFirst taken
        (cutPieces separator { state with afterDash := endsWithDash taken } (rest.drop n))
    else if !state.isBracket c && separator.isPrefixOf (c :: rest) && state.depths == .level then
      [] :: cutPieces separator ⟨.level, false, endsWithDash separator⟩
        (rest.drop (separator.length - 1))
    else extendFirst [c] (cutPieces separator (state.step c) rest)
termination_by text.length
decreasing_by all_goals (simp only [List.length_cons, List.length_drop]; omega)

/-- The pieces of the text, stripped, without those that are blank. -/
def splitTopLevel (separator : List Char) (text : List Char) : List (List Char) :=
  ((cutPieces separator .start text).map strip).filter fun piece => !piece.isEmpty

end DartBindings.Source
