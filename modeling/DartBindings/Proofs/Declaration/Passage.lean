import DartBindings.Proofs.Declaration.Course

/-!
Walks over passages. Whatever words a parameter list holds, a walk comes out of it at the end of
the empty body that follows, and the headers that it took from it declare nothing.
-/

set_option autoImplicit false

namespace DartBindings.Declaration

open Text Source

variable {dialect : Dialect} {text after rest : List Char} {extent : Extent} {stop pos : Nat}

theorem skipGroup_of_passing {opening closing : Char} (passing : Passing text stop after rest pos)
    (ends : EndsGroup opening closing 1 rest) :
    ∃ further, Passing text stop after further (skipGroup text pos stop opening closing) ∧
      further.length < rest.length := by
  obtain ⟨n, inside, skipped⟩ := skipGroup_of_endsGroup passing.window ends
  refine ⟨rest.drop (n + 1), skipped ▸ passing.drop inside, ?_⟩
  rw [List.length_drop]
  omega

/-- A passage as a course. The brace of the empty body after it ends the course. -/
def passage (text : List Char) (stop : Nat) (after : List Char) : Course text stop where
  Here size pos := ∃ rest, rest.length = size ∧ Passing text stop after rest pos
  Apart pos := ∃ rest, Passing text stop after rest pos ∧ ∀ c ∈ rest.head?, c ≠ ' ' ∧ c ≠ '('
  Last token := ∃ n, token = ⟨.symbol, "\x7b", n, n + 1⟩ ∧
    Window text stop (n + 1) ('\x7d' :: after)
  read := by
    rintro _ pos ⟨rest, rfl, passing⟩
    rcases passing.read with ⟨n, read, body⟩ | ⟨token, next, read, passed, later, shorter⟩
    · exact ⟨_, read, .inl ⟨n, rfl, body⟩⟩
    · refine ⟨token, read, .inr ⟨passed.kind, passed.noBrace, ⟨_, shorter, next, rfl, later⟩,
        fun word => ⟨next, later, passed.tight word⟩, ?_⟩⟩
      intro opening closing paired same
      obtain ⟨further, beyond, less⟩ := skipGroup_of_passing later (passed.groups paired same)
      exact ⟨_, less.trans shorter, further, rfl, beyond⟩
  symbol := by
    rintro _ ⟨n, rfl, -⟩
    exact ⟨rfl, by simp⟩
  noArguments := by
    rintro pos ⟨rest, passing, apart⟩
    apply skipArguments_of_window passing.window
    intro c first
    cases rest with
    | nil =>
        cases first
        decide
    | cons d rest => exact (apart c first).2

/-- A header from a passage. No parameter list follows it, and no body with a member. -/
def Harmless (text : List Char) (stop : Nat) (after : List Char) (header : Header) : Prop :=
  ∃ rest, Passing text stop after rest header.stop ∧ ∀ c ∈ rest.head?, c ≠ ' ' ∧ c ≠ '('

/-- A walk that enters a passage goes on after the empty body with nothing that waits. -/
theorem Walk.headers_of_passing (passing : Passing text extent.stop after rest pos)
    (markers modifiers : List String) (qualified : Bool) :
    ∃ found next, Window text extent.stop next after ∧
      (∀ header ∈ found, Harmless text extent.stop after header) ∧
      Walk.headers dialect text extent ⟨pos, markers, modifiers, qualified⟩ =
        found ++ (Walk.start next).headers dialect text extent := by
  obtain ⟨found, walk, _, read, ⟨n, rfl, body⟩, harmless, walked⟩ :=
    @Walk.headers_of_course dialect text extent _ pos (passage text extent.stop after)
      ⟨rest, rfl, passing⟩ markers modifiers qualified
  exact ⟨found, n + 2, body.tail, harmless, by rw [walked, Walk.headers_emptyBody read body]⟩

/-! ## Harmless headers -/

theorem opening_of_passing (passing : Passing text text.length after rest pos) :
    (opening text pos).body = none ∨
      ∃ start, (opening text pos).body = some start ∧
        Window text text.length start ('\x7d' :: after) := by
  rcases opening_of_course (passage text text.length after) ⟨rest, rfl, passing⟩ with
    none | ⟨next, _, read, ⟨n, rfl, body⟩, same⟩
  · exact .inl none
  · exact .inr ⟨n + 1, by rw [same, opening_of_some read]; rfl, body⟩

theorem headers_of_ended (dialect : Dialect) (text : List Char) (pos : Nat) (shallow : Bool) :
    headers dialect text pos pos shallow = [] :=
  Walk.headers_of_none (nextToken_stop text pos)

/-- A class whose body is empty, or that has none, declares nothing. -/
theorem entity?_of_opening {header : Header}
    (opened : (opening text header.stop).body = none ∨
      ∃ start, (opening text header.stop).body = some start ∧
        Window text text.length start ('\x7d' :: after))
    (dialect : Dialect) (file : Option RawText) :
    Declaration.entity? dialect text file header = .found none := by
  unfold Declaration.entity?
  rcases opened with none | ⟨start, body, window⟩
  · simp only [none]
  · have closed : bodyStop text file header.name start = .found start := by
      obtain ⟨⟨tail, here⟩, -⟩ := window
      rw [List.cons_append] at here
      simp [bodyStop, findClosing, here, closingIndex_at_closing]
    simp only [body]
    split
    · rfl
    · simp [closed, Extraction.andThen, Extraction.found, Extraction.map, headers_of_ended,
        callables, Except.map]

/-- A header that no parameter list follows is not exposed. -/
theorem callable?_of_read {header : Header} {token : Token}
    (read : nextToken text header.stop stop = some token) (value : token.value ≠ "(")
    (dialect : Dialect) (wholeClass : Bool) :
    dialect.callable? text wholeClass stop header = .ok none := by
  have none : dialect.signature? text header.stop stop = .ok none := by
    simp [Dialect.signature?, read, value]
  unfold Dialect.callable?
  split
  · rfl
  · rw [none]
    rfl

theorem Harmless.entity? {header : Header} (harmless : Harmless text text.length after header)
    (dialect : Dialect) (file : Option RawText) :
    Declaration.entity? dialect text file header = .found none := by
  obtain ⟨rest, passing, -⟩ := harmless
  exact entity?_of_opening (opening_of_passing passing) dialect file

theorem Harmless.callable? {header : Header} (harmless : Harmless text stop after header)
    (dialect : Dialect) (wholeClass : Bool) :
    dialect.callable? text wholeClass stop header = .ok none := by
  obtain ⟨rest, passing, apart⟩ := harmless
  obtain ⟨token, read, value⟩ := passing.read_ne_parenthesis apart
  exact callable?_of_read read value dialect wholeClass

end DartBindings.Declaration
