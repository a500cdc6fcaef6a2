import DartBindings.Proofs.Text.Classes
import DartBindings.Source.Token

/-!
Reading past trivia. Skipping it once skips all of it, and a token is read alike from every
offset in the trivia before it.
-/

set_option autoImplicit false

namespace DartBindings.Source

open Text

theorem commentLength_of_ne {c : Char} (slash : c ≠ '/') (rest : List Char) :
    commentLength (c :: rest) = 0 := by
  unfold commentLength
  split
  · rename_i same
    exact absurd (List.cons.inj same).1 slash
  · rename_i same
    exact absurd (List.cons.inj same).1 slash
  · rfl

theorem eq_slash_of_commentLength {c : Char} {rest : List Char} {n : Nat}
    (comment : commentLength (c :: rest) = n + 1) : c = '/' := by
  by_cases slash : c = '/'
  · exact slash
  · rw [commentLength_of_ne slash] at comment
    cases comment

theorem isQuote_of_commentLength {c : Char} {rest : List Char} {n : Nat}
    (comment : commentLength (c :: rest) = n + 1) : isQuote c = false := by
  rw [eq_slash_of_commentLength comment]
  rfl

theorem commentLength_of_isBlank {c : Char} (blank : isBlank c = true) (rest : List Char) :
    commentLength (c :: rest) = 0 :=
  commentLength_of_ne (ne_of_class blank (by decide)) rest

@[simp] theorem triviaLength_nil : triviaLength [] = 0 := by
  rw [triviaLength.eq_def]

theorem triviaLength_cons (c : Char) (rest : List Char) :
    triviaLength (c :: rest) =
      if isBlank c then triviaLength rest + 1
      else
        match commentLength (c :: rest) with
        | 0 => 0
        | n + 1 => triviaLength (rest.drop n) + (n + 1) :=
  triviaLength.eq_def (c :: rest)

theorem triviaLength_blank {c : Char} (blank : isBlank c = true) (rest : List Char) :
    triviaLength (c :: rest) = triviaLength rest + 1 := by
  rw [triviaLength_cons, if_pos blank]

theorem triviaLength_comment {c : Char} {rest : List Char} {n : Nat}
    (comment : commentLength (c :: rest) = n + 1) :
    triviaLength (c :: rest) = triviaLength (rest.drop n) + (n + 1) := by
  have solid : isBlank c = false := by
    rw [eq_slash_of_commentLength comment]
    rfl
  rw [triviaLength_cons, solid, comment]
  rfl

/-- A comment that takes the whole text leaves nothing to read. -/
theorem triviaLength_of_commentLength {text : List Char}
    (whole : commentLength text = text.length) : triviaLength text = text.length := by
  cases text with
  | nil => exact triviaLength_nil
  | cons c rest =>
      rw [triviaLength_comment whole, List.drop_length, triviaLength_nil, Nat.zero_add,
        List.length_cons]

theorem triviaLength_eq_zero_iff {c : Char} {rest : List Char} :
    triviaLength (c :: rest) = 0 ↔ isBlank c = false ∧ commentLength (c :: rest) = 0 := by
  rw [triviaLength_cons]
  cases isBlank c with
  | true => simp
  | false => cases commentLength (c :: rest) <;> simp

theorem triviaLength_drop_triviaLength (text : List Char) :
    triviaLength (text.drop (triviaLength text)) = 0 := by
  induction text using triviaLength.induct with
  | case1 => simp
  | case2 c rest blank ih => rwa [triviaLength_blank blank, List.drop_succ_cons]
  | case3 c rest solid comment =>
      have none := triviaLength_eq_zero_iff.mpr ⟨by simpa using solid, comment⟩
      rwa [none, List.drop_zero]
  | case4 c rest _ n comment ih =>
      rw [triviaLength_comment comment, Nat.add_comm, Nat.add_right_comm, List.drop_succ_cons,
        ← List.drop_drop]
      exact ih

theorem triviaLength_blanks {blanks : List Char} (blank : ∀ c ∈ blanks, isBlank c = true)
    (rest : List Char) : triviaLength (blanks ++ rest) = triviaLength rest + blanks.length := by
  induction blanks with
  | nil => rfl
  | cons c blanks ih =>
      rw [List.cons_append, triviaLength_blank (blank c List.mem_cons_self),
        ih fun d member => blank d (List.mem_cons_of_mem _ member), List.length_cons]
      omega

/-! ## Tokens after trivia -/

/-- A token read from here is the one read from any offset of the trivia that starts here. -/
theorem nextToken_skip {text : List Char} {pos n : Nat}
    (trivia : triviaLength (text.drop pos) = triviaLength (text.drop (pos + n)) + n) (stop : Nat) :
    nextToken text pos stop = nextToken text (pos + n) stop := by
  have start : skipTrivia text pos stop = skipTrivia text (pos + n) stop := by
    unfold skipTrivia
    omega
  unfold nextToken
  rw [start]

theorem nextToken_triviaLength (text : List Char) (pos stop : Nat) :
    nextToken text pos stop = nextToken text (pos + triviaLength (text.drop pos)) stop := by
  apply nextToken_skip
  rw [← List.drop_drop, triviaLength_drop_triviaLength, Nat.zero_add]

theorem nextToken_of_drop_nil {text : List Char} {pos : Nat} (ended : text.drop pos = [])
    (stop : Nat) : nextToken text pos stop = none := by
  have start : skipTrivia text pos stop = min pos stop := by
    rw [skipTrivia, ended, triviaLength_nil, Nat.add_zero]
  unfold nextToken
  rw [start]
  dsimp only
  split
  · rfl
  · rename_i inside
    rw [Nat.min_eq_left (by omega), ended]

theorem nextToken_solid {text rest : List Char} {c : Char} {pos stop : Nat}
    (here : text.drop pos = c :: rest) (solid : triviaLength (c :: rest) = 0)
    (inside : pos < stop) :
    nextToken text pos stop =
      some ⟨(lexemeAt (stop - pos) c rest).kind, String.ofList (lexemeAt (stop - pos) c rest).value,
        pos, pos + (lexemeAt (stop - pos) c rest).length⟩ := by
  have start : skipTrivia text pos stop = pos := by
    unfold skipTrivia
    rw [here, solid]
    omega
  unfold nextToken
  simp only [start, here, Nat.not_le.mpr inside, ↓reduceIte]

theorem nextToken_solid_whole {text rest : List Char} {c : Char} {pos : Nat}
    (here : text.drop pos = c :: rest) (solid : triviaLength (c :: rest) = 0) :
    nextToken text pos text.length =
      some ⟨(lexemeAt (rest.length + 1) c rest).kind,
        String.ofList (lexemeAt (rest.length + 1) c rest).value, pos,
        pos + (lexemeAt (rest.length + 1) c rest).length⟩ := by
  have size : text.length - pos = rest.length + 1 := by
    rw [← List.length_drop, here, List.length_cons]
  rw [nextToken_solid here solid (by omega), size]

end DartBindings.Source
