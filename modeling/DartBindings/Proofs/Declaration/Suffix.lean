import DartBindings.Proofs.Declaration.Lockstep

/-!
Walks over the end of a text. A walk looks at nothing before the place where it stands, so it
finds what it finds in the rest of the text alone, at later offsets.
-/

set_option autoImplicit false

namespace DartBindings.Source

/-- The token in a text that has `n` characters more in front. -/
def Token.later (n : Nat) (token : Token) : Token :=
  { token with start := n + token.start, stop := n + token.stop }

section Suffix

variable (front text : List Char) (pos stop : Nat)

theorem skipTrivia_suffix :
    skipTrivia (front ++ text) (front.length + pos) (front.length + stop) =
      front.length + skipTrivia text pos stop := by
  unfold skipTrivia
  rw [List.drop_length_add_append]
  omega

theorem nextToken_suffix :
    nextToken (front ++ text) (front.length + pos) (front.length + stop) =
      (nextToken text pos stop).map (Token.later front.length) := by
  unfold nextToken
  rw [skipTrivia_suffix]
  simp only [List.drop_length_add_append, Nat.add_le_add_iff_left, Nat.add_sub_add_left]
  split
  · rfl
  · cases text.drop (skipTrivia text pos stop) with
    | nil => rfl
    | cons c rest => simp only [Option.map_some, Token.later, Nat.add_assoc]

theorem tokens_suffix :
    tokens (front ++ text) (front.length + pos) (front.length + stop) =
      (tokens text pos stop).map (Token.later front.length) := by
  have read (pos : Nat) := nextToken_suffix front text pos stop
  induction pos using tokens.induct text stop with
  | case1 pos ended =>
      have same := read pos
      rw [ended] at same
      rw [tokens_of_none ended, tokens_of_none same]
      rfl
  | case2 pos token here ih =>
      have same := read pos
      rw [here] at same
      rw [tokens_of_some here, tokens_of_some same, List.map_cons, ← ih]
      rfl

theorem findClosing_suffix (opening closing : Option Char) :
    findClosing (front ++ text) (front.length + pos) opening closing =
      match findClosing text pos opening closing with
      | .ok n => .ok (front.length + n)
      | .error failure => .error ⟨front.length + failure.start, failure.body⟩ := by
  unfold findClosing
  rw [List.drop_length_add_append]
  cases closingIndex opening closing 1 (text.drop pos) with
  | none => rfl
  | some n => simp only [Nat.add_assoc]

end Suffix

end DartBindings.Source

namespace DartBindings.Declaration

open Source

/-- The header in a text that has `n` characters more in front. -/
def Header.later (n : Nat) (header : Header) : Header :=
  { header with start := n + header.start, stop := n + header.stop }

def Walk.later (n : Nat) (walk : Walk) : Walk :=
  { walk with pos := n + walk.pos }

section Suffix

variable (dialect : Dialect) (front text : List Char) (pos stop : Nat)

theorem skipGroup_suffix (opening closing : Char) :
    skipGroup (front ++ text) (front.length + pos) (front.length + stop) opening closing =
      front.length + skipGroup text pos stop opening closing := by
  unfold skipGroup
  rw [findClosing_suffix]
  cases findClosing text pos opening closing with
  | ok n => simp only [Nat.add_assoc, Nat.add_min_add_left]
  | error failure => rfl

theorem skipArguments_suffix :
    skipArguments (front ++ text) (front.length + pos) (front.length + stop) =
      front.length + skipArguments text pos stop := by
  have here : (front ++ text)[front.length + pos]? = text[pos]? := by
    rw [List.getElem?_append_right (Nat.le_add_right _ _), Nat.add_sub_cancel_left]
  unfold skipArguments
  rw [here, Nat.add_assoc, skipGroup_suffix]
  simp only [Nat.add_lt_add_iff_left]
  split <;> rfl

/-- A reader at the end of the longer text keeps in step with one in the shorter text. -/
theorem lockstep_suffix :
    Lockstep dialect text stop (front ++ text) (front.length + stop)
      ⟨(front.length + ·), (front.length + ·)⟩ fun pos place => place = front.length + pos where
  nextToken := by
    rintro pos _ rfl
    exact nextToken_suffix front text pos stop
  afterToken := fun _ _ => rfl
  skipGroup := by
    rintro pos _ opening closing rfl -
    exact skipGroup_suffix front text pos stop opening closing
  skipArguments := fun _ _ _ => skipArguments_suffix front text _ stop

theorem Walk.headers_suffix (shallow : Bool) (walk : Walk) :
    (walk.later front.length).headers dialect (front ++ text) ⟨front.length + stop, shallow⟩ =
      (walk.headers dialect text ⟨stop, shallow⟩).map (Header.later front.length) :=
  ((lockstep_suffix dialect front text stop).headers shallow rfl).1

end Suffix

end DartBindings.Declaration
