import DartBindings.Declaration.Extraction
import DartBindings.Proofs.Declaration.Walk
import DartBindings.Proofs.Source.Passage

/-!
Courses: stretches of a text that end in a token of their own. Readers that follow the tokens of
a course, and skip the groups that start on it, come to its last token. Of what a walk takes for
a header on the way, only the words can matter that something other than a blank comes after.
-/

set_option autoImplicit false

namespace DartBindings.Declaration

open Text Source

/-- A group that is closed in a text is skipped up to an offset in the text. -/
theorem skipGroup_of_endsGroup {opening closing : Char} {text rest after : List Char}
    {stop pos : Nat} (window : Window text stop pos (rest ++ after))
    (ends : EndsGroup opening closing 1 rest) :
    ∃ n, n < rest.length ∧ skipGroup text pos stop opening closing = pos + (n + 1) := by
  obtain ⟨⟨tail, here⟩, size⟩ := window
  rw [List.append_assoc] at here
  obtain ⟨n, inside, found⟩ := ends 1 Nat.one_pos (Nat.le_refl 1) (after ++ tail)
  rw [List.length_append] at size
  refine ⟨n, inside, ?_⟩
  simp only [skipGroup, findClosing, here, found]
  omega

/-! ## Courses -/

/-- A token of a course. There is less of the course after it, and after a group that it opens. -/
structure OnCourse (text : List Char) (stop : Nat) (Here : Nat → Nat → Prop) (Apart : Nat → Prop)
    (size : Nat) (token : Token) : Prop where
  kind : token.kind = .word ∨ token.kind = .symbol
  noBrace : token.value ≠ "\x7b"
  goesOn : ∃ less, less < size ∧ Here less token.stop
  apart : token.kind = .word → Apart token.stop
  group : ∀ {opening closing}, Paired opening closing → token.value = String.ofList [opening] →
    ∃ less, less < size ∧ Here less (skipGroup text token.stop stop opening closing)

/-- A course in a window: `Here` holds of the offsets on it with what is left of it, `Apart` of
those right after its words, and `Last` of the token that ends it. -/
structure Course (text : List Char) (stop : Nat) where
  Here : Nat → Nat → Prop
  Apart : Nat → Prop
  Last : Token → Prop
  read : ∀ {size pos}, Here size pos → ∃ token, nextToken text pos stop = some token ∧
    (Last token ∨ OnCourse text stop Here Apart size token)
  symbol : ∀ {token}, Last token → token.kind = .symbol ∧ token.value ≠ "<"
  noArguments : ∀ {pos}, Apart pos → skipArguments text pos stop = pos

section Course

variable {dialect : Dialect} {text : List Char} {extent : Extent} {stop size pos : Nat}

/-- What is read on a course: its last token, or one that is followed by less of it. -/
def Course.Reads (course : Course text stop) (size : Nat) (token : Token) : Prop :=
  course.Last token ∨ OnCourse text stop course.Here course.Apart size token

theorem nameToken_of_course (course : Course text stop) (here : course.Here size pos) :
    ∃ less token, less ≤ size ∧ course.Here less (nameToken text pos stop).1 ∧
      (nameToken text pos stop).2 = some token ∧ course.Reads less token := by
  obtain ⟨token, read, found⟩ := course.read here
  by_cases angle : token.value = "<"
  · rcases found with last | on
    · exact absurd angle (course.symbol last).2
    · obtain ⟨less, shorter, beyond⟩ := on.group .angle angle
      obtain ⟨second, readSecond, reads⟩ := course.read beyond
      refine ⟨less, second, shorter.le, ?_, ?_, reads⟩
      · simpa [nameToken, read, angle] using beyond
      · simpa [nameToken, read, angle] using readSecond
  · exact ⟨size, token, Nat.le_refl _, by simpa [nameToken, read, angle] using here,
      by simp [nameToken, read, angle], found⟩

/-- What a walk takes for a name stands apart. -/
theorem Walk.atKeyword_of_reads (course : Course text extent.stop) {keyword token : Token}
    (here : course.Here size (nameToken text keyword.stop extent.stop).1)
    (read : (nameToken text keyword.stop extent.stop).2 = some token)
    (reads : course.Reads size token) (walk : Walk) :
    ∃ less, less ≤ size ∧ course.Here less (walk.atKeyword text extent keyword).1.pos ∧
      ∀ header ∈ (walk.atKeyword text extent keyword).2, course.Apart header.stop := by
  unfold Walk.atKeyword
  generalize nameToken text keyword.stop extent.stop = name at here read
  obtain ⟨namePos, candidate⟩ := name
  cases read
  dsimp only at here ⊢
  split
  · exact ⟨size, Nat.le_refl _, here, by simp⟩
  · split
    · rename_i word
      have word : token.kind = .word := by simpa using word
      rcases reads with last | on
      · rw [(course.symbol last).1] at word
        cases word
      · obtain ⟨less, shorter, later⟩ := on.goesOn
        refine ⟨less, shorter.le, later, ?_⟩
        intro header member
        cases member
        exact on.apart word
    · exact ⟨size, Nat.le_refl _, here, by simp⟩

theorem Walk.atKeyword_of_course (course : Course text extent.stop) {keyword : Token}
    (here : course.Here size keyword.stop) (walk : Walk) :
    ∃ less, less ≤ size ∧ course.Here less (walk.atKeyword text extent keyword).1.pos ∧
      ∀ header ∈ (walk.atKeyword text extent keyword).2, course.Apart header.stop := by
  obtain ⟨inner, token, less, beyond, read, reads⟩ := nameToken_of_course course here
  obtain ⟨further, shorter, later, apart⟩ :=
    Walk.atKeyword_of_reads course beyond read reads walk
  exact ⟨further, shorter.trans less, later, apart⟩

theorem Walk.atToken_of_course (course : Course text extent.stop) {token : Token}
    (on : OnCourse text extent.stop course.Here course.Apart size token) (walk : Walk) :
    ∃ less, less < size ∧ course.Here less (walk.atToken dialect text extent token).1.pos ∧
      ∀ header ∈ (walk.atToken dialect text extent token).2, course.Apart header.stop := by
  have noMarker : (token.kind == .marker) = false := by
    rcases on.kind with word | symbol
    · rw [word]
      rfl
    · rw [symbol]
      rfl
  have noBrace : (token.value == "\x7b") = false := by simpa using on.noBrace
  obtain ⟨less, shorter, later⟩ := on.goesOn
  simp only [Walk.atToken, noMarker, noBrace, Bool.false_and, Bool.false_eq_true, ↓reduceIte]
  split
  · rename_i modifier
    have word : token.kind = .word := by
      simp only [Dialect.isModifier, Bool.and_eq_true, beq_iff_eq] at modifier
      exact modifier.1
    have none := course.noArguments (on.apart word)
    exact ⟨less, shorter, by simpa [none] using later, by simp⟩
  · split
    · obtain ⟨further, inner, beyond, apart⟩ := Walk.atKeyword_of_course course later walk
      exact ⟨further, by omega, beyond, apart⟩
    · exact ⟨less, shorter, later, by simp⟩

/-- A walk on a course comes to the last token of it. -/
theorem Walk.headers_of_course (course : Course text extent.stop) (here : course.Here size pos)
    (markers modifiers : List String) (qualified : Bool) :
    ∃ found, ∃ walk : Walk, ∃ token, nextToken text walk.pos extent.stop = some token ∧
      course.Last token ∧
      (∀ header ∈ found, course.Apart header.stop) ∧
      Walk.headers dialect text extent ⟨pos, markers, modifiers, qualified⟩ =
        found ++ walk.headers dialect text extent := by
  -- a step may pass a whole group, and any word may be taken for a modifier or a keyword
  induction size using Nat.strongRecOn generalizing pos markers modifiers qualified with
  | ind size ih =>
      obtain ⟨token, read, reads⟩ := course.read here
      let walk : Walk := ⟨pos, markers, modifiers, qualified⟩
      rcases reads with last | on
      · exact ⟨[], walk, token, read, last, by simp, rfl⟩
      · have step : walk.headers dialect text extent = _ := Walk.headers_of_some read
        obtain ⟨less, shorter, later, apart⟩ := Walk.atToken_of_course course on walk
        obtain ⟨found, stopped, final, readLast, last, others, rest⟩ :=
          ih less shorter later (walk.atToken dialect text extent token).1.markers
            (walk.atToken dialect text extent token).1.modifiers
            (walk.atToken dialect text extent token).1.qualified
        refine ⟨(walk.atToken dialect text extent token).2.toList ++ found, stopped, final,
          readLast, last, ?_, ?_⟩
        · intro header member
          rcases List.mem_append.mp member with first | second
          · exact apart header (by simpa using first)
          · exact others header second
        · rw [List.append_assoc, ← rest]
          exact step

/-- A walk that looks on a course for the name of a declaration comes to the last token of it. -/
theorem Walk.atKeyword_headers_of_course (course : Course text extent.stop) {keyword : Token}
    (here : course.Here size (nameToken text keyword.stop extent.stop).1) (walk : Walk) :
    ∃ found, ∃ stopped : Walk, ∃ token, nextToken text stopped.pos extent.stop = some token ∧
      course.Last token ∧ (∀ header ∈ found, course.Apart header.stop) ∧
      (walk.atKeyword text extent keyword).2.toList ++
          (walk.atKeyword text extent keyword).1.headers dialect text extent =
        found ++ stopped.headers dialect text extent := by
  obtain ⟨token, read, reads⟩ := course.read here
  rw [← nameToken_snd] at read
  obtain ⟨less, -, goesOn, first⟩ := Walk.atKeyword_of_reads course here read reads walk
  obtain ⟨others, stopped, final, readLast, last, later, rest⟩ :=
    @Walk.headers_of_course dialect _ _ _ _ course goesOn
      (walk.atKeyword text extent keyword).1.markers
      (walk.atKeyword text extent keyword).1.modifiers
      (walk.atKeyword text extent keyword).1.qualified
  refine ⟨(walk.atKeyword text extent keyword).2.toList ++ others, stopped, final, readLast, last,
    ?_, ?_⟩
  · simp only [List.forall_mem_append, Option.mem_toList]
    exact ⟨first, later⟩
  · rw [List.append_assoc, ← rest]

end Course

/-! ## Openings -/

section Openings

variable {text : List Char} {size pos : Nat}

theorem opening_of_none (read : nextToken text pos text.length = none) :
    opening text pos = ⟨none, []⟩ := by
  rw [opening.eq_def]
  split
  · rfl
  · rename_i token other
    rw [read] at other
    cases other

theorem opening_of_some {token : Token} (read : nextToken text pos text.length = some token) :
    opening text pos =
      if token.value == "\x7b" then ⟨some token.stop, []⟩
      else if endsHeader token then ⟨none, []⟩
      else
        let rest := opening text (afterHeaderToken text token)
        if token.kind == .word && token.value != "(" && token.value != "<" then
          ⟨rest.body, token.value :: rest.words⟩
        else rest := by
  rw [opening.eq_def]
  split
  · rename_i other
    rw [read] at other
    cases other
  · rename_i found other
    rw [read] at other
    cases other
    rfl

/-- The search for a body goes on after a token that neither starts nor rules out one. -/
theorem opening_body_of_some {token : Token}
    (read : nextToken text pos text.length = some token) (noBrace : token.value ≠ "\x7b") :
    (opening text pos).body = none ∨
      (opening text pos).body = (opening text (afterHeaderToken text token)).body := by
  rw [opening_of_some read, beq_eq_false_iff_ne.mpr noBrace]
  simp only [Bool.false_eq_true, ↓reduceIte]
  split
  · exact .inl rfl
  · split <;> exact .inr rfl

theorem afterHeaderToken_of_course (course : Course text text.length) {token : Token}
    (on : OnCourse text text.length course.Here course.Apart size token) :
    ∃ less, less < size ∧ course.Here less (afterHeaderToken text token) := by
  unfold afterHeaderToken
  split
  · rename_i round
    exact on.group .round (by simpa using round)
  · split
    · rename_i angle
      exact on.group .angle (by simpa using angle)
    · exact on.goesOn

/-- The search for a body that starts on a course ends there, or comes to its last token. -/
theorem opening_of_course (course : Course text text.length) (here : course.Here size pos) :
    (opening text pos).body = none ∨
      ∃ next token, nextToken text next text.length = some token ∧ course.Last token ∧
        (opening text pos).body = (opening text next).body := by
  induction size using Nat.strongRecOn generalizing pos with
  | ind size ih =>
      obtain ⟨token, read, reads⟩ := course.read here
      rcases reads with last | on
      · exact .inr ⟨pos, token, read, last, rfl⟩
      · obtain ⟨less, shorter, beyond⟩ := afterHeaderToken_of_course course on
        rcases opening_body_of_some read on.noBrace with none | same
        · exact .inl none
        · rw [same]
          exact ih less shorter beyond

end Openings

end DartBindings.Declaration
