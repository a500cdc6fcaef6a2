import DartBindings.Declaration.Dialect

/-!
Headers: the start of a class or a member, up to its name, with the markers and the modifiers
that directly precede it.

The headers of a window are found by one walk over its tokens. A marker or a modifier waits for
the next header, and any other token makes it void. Argument lists attached to markers and
modifiers are passed over, as are type parameters before a name. A keyword after a double colon
or a full stop is a reference and starts nothing.
-/

set_option autoImplicit false

namespace DartBindings.Declaration

open Source

/-- The start of a declaration. `start` is the offset of its keyword, `stop` the offset after
its name. -/
structure Header where
  keyword : String
  name : String
  markers : List String
  modifiers : List String
  start : Nat
  stop : Nat
  deriving DecidableEq, Repr

/-- The part of the text to be walked. In a shallow walk, blocks in braces are passed over. -/
structure Extent where
  stop : Nat
  shallow : Bool
  deriving DecidableEq, Repr

/-- The state of a walk between two tokens. -/
structure Walk where
  pos : Nat
  /-- Markers that wait for a header. -/
  markers : List String
  /-- Modifiers that wait for a header. -/
  modifiers : List String
  /-- The last token was a double colon or a full stop. -/
  qualified : Bool
  deriving DecidableEq, Repr

def Walk.start (pos : Nat) : Walk := ⟨pos, [], [], false⟩

/-- A token after which a keyword is a reference. -/
def isQualifier (token : Token) : Bool :=
  token.value == "::" || token.value == "."

/-- The offset after the group whose body starts at `start`: at most `stop`, and `stop` itself
if the group is never closed. -/
def skipGroup (text : List Char) (start stop : Nat) (opening closing : Char) : Nat :=
  match findClosing text start opening closing with
  | .ok n => min (n + 1) stop
  | .error _ => stop

/-- The offset after an argument list that starts directly at `pos`. -/
def skipArguments (text : List Char) (pos stop : Nat) : Nat :=
  if pos < stop && text[pos]? == some '(' then skipGroup text (pos + 1) stop '(' ')' else pos

/-- The token that may be a name at `pos`, after type parameters if there are any, and the
offset from which it was read. -/
def nameToken (text : List Char) (pos stop : Nat) : Nat × Option Token :=
  match nextToken text pos stop with
  | some token =>
    if token.value == "<" then
      let pos := skipGroup text token.stop stop '<' '>'
      (pos, nextToken text pos stop)
    else (pos, some token)
  | none => (pos, none)

def Walk.atKeyword (walk : Walk) (text : List Char) (extent : Extent) (keyword : Token) :
    Walk × Option Header :=
  let (pos, name) := nameToken text keyword.stop extent.stop
  match name with
  | some token =>
    if keyword.value == classKeyword && declarationWords.contains token.value then
      (⟨pos, walk.markers, walk.modifiers ++ [classKeyword], isQualifier keyword⟩, none)
    else if token.kind == .word then
      (⟨token.stop, [], [], isQualifier token⟩,
        some ⟨keyword.value, token.value, walk.markers, walk.modifiers, keyword.start, token.stop⟩)
    else (⟨pos, [], [], isQualifier keyword⟩, none)
  | none => (⟨pos, [], [], isQualifier keyword⟩, none)

def Walk.atToken (walk : Walk) (dialect : Dialect) (text : List Char) (extent : Extent)
    (token : Token) : Walk × Option Header :=
  if token.kind == .marker then
    (⟨skipArguments text token.stop extent.stop, walk.markers ++ [token.value], walk.modifiers,
      isQualifier token⟩, none)
  else if dialect.isModifier token then
    (⟨skipArguments text token.stop extent.stop, walk.markers, walk.modifiers ++ [token.value],
      isQualifier token⟩, none)
  else if dialect.isKeyword token && !walk.qualified then walk.atKeyword text extent token
  else if token.value == "\x7b" && extent.shallow then
    (⟨skipGroup text token.stop extent.stop '\x7b' '\x7d', [], [], isQualifier token⟩, none)
  else (⟨token.stop, [], [], isQualifier token⟩, none)

/-! ## The walk advances -/

theorem lt_skipGroup {text : List Char} {pos start stop : Nat} {opening closing : Char}
    (before : pos < start) (inside : pos < stop) :
    pos < skipGroup text start stop opening closing := by
  unfold skipGroup
  split
  · rename_i n found
    unfold findClosing at found
    split at found
    · cases found
      omega
    · cases found
  · exact inside

theorem lt_skipArguments {text : List Char} {pos start stop : Nat}
    (before : pos < start) (inside : pos < stop) : pos < skipArguments text start stop := by
  unfold skipArguments
  split
  · exact lt_skipGroup (by omega) inside
  · exact before

theorem lt_nameToken (text : List Char) {pos start stop : Nat}
    (before : pos < start) (inside : pos < stop) : pos < (nameToken text start stop).1 := by
  unfold nameToken
  split
  · rename_i token read
    split
    · have advances := nextToken_advances read
      exact lt_skipGroup (by omega) inside
    · exact before
  · exact before

theorem nameToken_stop {text : List Char} {start stop : Nat} {token : Token}
    (read : (nameToken text start stop).2 = some token) :
    (nameToken text start stop).1 < token.stop := by
  revert read
  unfold nameToken
  split
  · rename_i first firstRead
    split
    · intro read
      exact (nextToken_advances read).1
    · intro read
      cases read
      exact (nextToken_advances firstRead).1
  · intro read
    cases read

theorem Walk.lt_atKeyword {walk : Walk} {text : List Char} {extent : Extent} {keyword : Token}
    {pos : Nat} (before : pos < keyword.stop) (inside : pos < extent.stop) :
    pos < (walk.atKeyword text extent keyword).1.pos := by
  have afterName := lt_nameToken text before inside
  have tokenStop := @nameToken_stop text keyword.stop extent.stop
  unfold Walk.atKeyword
  generalize nameToken text keyword.stop extent.stop = found at afterName tokenStop
  obtain ⟨namePos, name⟩ := found
  cases name with
  | none => exact afterName
  | some token =>
      have := tokenStop rfl
      dsimp only at afterName this ⊢
      split
      · exact afterName
      · split
        · exact Nat.lt_trans afterName this
        · exact afterName

theorem Walk.lt_atToken_of_lt (dialect : Dialect) {walk : Walk} {text : List Char} {extent : Extent}
    {token : Token} {pos : Nat} (before : pos < token.stop) (inside : pos < extent.stop) :
    pos < (walk.atToken dialect text extent token).1.pos := by
  unfold Walk.atToken
  split
  · exact lt_skipArguments before inside
  · split
    · exact lt_skipArguments before inside
    · split
      · exact Walk.lt_atKeyword before inside
      · split
        · exact lt_skipGroup before inside
        · exact before

theorem Walk.lt_atToken (dialect : Dialect) {walk : Walk} {text : List Char} {extent : Extent}
    {token : Token} (read : nextToken text walk.pos extent.stop = some token) :
    walk.pos < (walk.atToken dialect text extent token).1.pos := by
  obtain ⟨before, inside⟩ := nextToken_advances read
  exact Walk.lt_atToken_of_lt dialect before inside

/-- The headers that a walk finds from its current state on. -/
def Walk.headers (dialect : Dialect) (text : List Char) (extent : Extent) (walk : Walk) :
    List Header :=
  match _read : nextToken text walk.pos extent.stop with
  | none => []
  | some token =>
    let found := walk.atToken dialect text extent token
    found.2.toList ++ Walk.headers dialect text extent found.1
termination_by extent.stop - walk.pos
decreasing_by
  have := Walk.lt_atToken dialect _read
  have := (nextToken_advances _read).2
  omega

/-- The headers in the window from `start` to `stop`, in order. -/
def headers (dialect : Dialect) (text : List Char) (start stop : Nat) (shallow : Bool) :
    List Header :=
  Walk.headers dialect text ⟨stop, shallow⟩ (Walk.start start)

end DartBindings.Declaration
