import DartBindings.Proofs.Declaration.Passage
import DartBindings.Proofs.Source.Crossing

/-!
Walks over loose texts. Blanks may come after the words of such a text, but no parenthesis, so
whatever its words are, a walk comes out of it at the end of the empty body that follows, and the
headers that it took from it declare nothing.
-/

set_option autoImplicit false

namespace DartBindings.Declaration

open Text Source

variable {dialect : Dialect} {text follow after rest next : List Char} {extent : Extent}
  {stop pos size : Nat} {token : Token}

/-! ## Courses of what is ahead -/

/-- A token of a course goes on with less of it, and so does each group that starts there. -/
theorem onCourse_of_crossed {Here : Nat → Nat → Prop} {Apart : Nat → Prop}
    (crossed : Crossed token next) (window : Window text stop token.stop (next ++ follow))
    (shorter : next.length < size)
    (goesOn : ∀ n ≤ next.length, Here (next.length - n) (token.stop + n))
    (apart : StartsPlain next → Apart token.stop) :
    OnCourse text stop Here Apart size token where
  kind := crossed.kind
  noBrace := crossed.noBrace
  goesOn := ⟨_, shorter, goesOn 0 (Nat.zero_le _)⟩
  apart word := apart (crossed.plain word)
  group paired same := by
    obtain ⟨n, inside, skipped⟩ := skipGroup_of_endsGroup window (crossed.groups paired same)
    refine ⟨_, ?_, skipped ▸ goesOn (n + 1) inside⟩
    omega

theorem skipArguments_of_startsPlain {c : Char} (plain : StartsPlain rest) (other : c ≠ '(')
    (window : Window text stop pos (rest ++ c :: after)) : skipArguments text pos stop = pos := by
  apply skipArguments_of_window window
  intro d first
  cases rest with
  | nil =>
      cases first
      exact other
  | cons e rest =>
      cases first
      exact (startsPlain_cons.mp plain).1

theorem symbol_of_brace (last : ∃ n, token = ⟨.symbol, "\x7b", n, n + 1⟩ ∧
    Window text stop (n + 1) ('\x7d' :: after)) : token.kind = .symbol ∧ token.value ≠ "<" := by
  obtain ⟨n, rfl, -⟩ := last
  exact ⟨rfl, by simp⟩

/-- What is ahead of an empty body as a course. The brace of the body ends the course. -/
def ahead (text : List Char) (stop : Nat) (after : List Char) : Course text stop where
  Here size pos := ∃ rest, rest.length = size ∧ Ahead text stop (emptyBody ++ after) rest pos
  Apart pos := ∃ rest, Ahead text stop (emptyBody ++ after) rest pos ∧ StartsPlain rest
  Last token := ∃ n, token = ⟨.symbol, "\x7b", n, n + 1⟩ ∧
    Window text stop (n + 1) ('\x7d' :: after)
  read := by
    rintro _ pos ⟨rest, rfl, ahead⟩
    rcases ahead.read (by decide) with beyond | ⟨token, next, read, crossed, later, shorter⟩
    · have body := ahead.window.of_append rest
      exact ⟨_, beyond.trans (nextToken_emptyBody body), .inl ⟨_, rfl, body.tail.tail⟩⟩
    · refine ⟨token, read, .inr (onCourse_of_crossed crossed later.window shorter ?_ ?_)⟩
      · exact fun n inside => ⟨next.drop n, List.length_drop, later.drop inside⟩
      · exact fun plain => ⟨next, later, plain⟩
  symbol := @symbol_of_brace text after stop
  noArguments := by
    rintro pos ⟨rest, ahead, plain⟩
    exact skipArguments_of_startsPlain plain (by decide) ahead.window

/-- The last character of what is ahead is no symbol together with the blank before a body. -/
theorem ahead_of_loose (nested : Nested true rest) (loose : Source.Loose rest)
    (window : Window text stop pos (rest ++ (emptyBody ++ after))) :
    Ahead text stop (emptyBody ++ after) rest pos :=
  ⟨window, nested.chars, loose, nested.groupsEnd, symbolAt_blank _⟩

/-! ## Headers on the way -/

/-- A header from a loose text. No parameter list follows it, and no body with a member. -/
def Idle (text : List Char) (stop : Nat) (after : List Char) (header : Header) : Prop :=
  (ahead text stop after).Apart header.stop

/-- A walk that enters a loose text goes on after the empty body with nothing that waits. -/
theorem Walk.headers_of_ahead (ahead : Ahead text extent.stop (emptyBody ++ after) rest pos)
    (markers modifiers : List String) (qualified : Bool) :
    ∃ found next, Window text extent.stop next after ∧
      (∀ header ∈ found, Idle text extent.stop after header) ∧
      Walk.headers dialect text extent ⟨pos, markers, modifiers, qualified⟩ =
        found ++ (Walk.start next).headers dialect text extent := by
  obtain ⟨found, walk, _, read, ⟨n, rfl, body⟩, idle, walked⟩ :=
    @Walk.headers_of_course dialect text extent _ pos (Declaration.ahead text extent.stop after)
      ⟨rest, rfl, ahead⟩ markers modifiers qualified
  exact ⟨found, n + 2, body.tail, idle, by rw [walked, Walk.headers_emptyBody read body]⟩

theorem Idle.entity? {header : Header} (idle : Idle text text.length after header)
    (dialect : Dialect) (file : Option RawText) :
    Declaration.entity? dialect text file header = .found none := by
  obtain ⟨rest, here, -⟩ := idle
  apply entity?_of_opening
  rcases opening_of_course (ahead text text.length after) ⟨rest, rfl, here⟩ with
    none | ⟨next, _, read, ⟨n, rfl, body⟩, same⟩
  · exact .inl none
  · exact .inr ⟨n + 1, by rw [same, opening_of_some read]; rfl, body⟩

theorem Idle.callable? {header : Header} (idle : Idle text stop after header)
    (dialect : Dialect) (wholeClass : Bool) :
    dialect.callable? text wholeClass stop header = .ok none := by
  obtain ⟨rest, here, plain⟩ := idle
  have body := nextToken_emptyBody (here.window.of_append rest)
  obtain ⟨token, read, value⟩ := here.read_ne_parenthesis (by decide) plain body (by simp)
  exact callable?_of_read read value dialect wholeClass

end DartBindings.Declaration
