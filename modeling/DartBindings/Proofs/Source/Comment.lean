import DartBindings.Proofs.Source.Locality

/-!
The grammar of blanks and comments, and how the readers of trivia keep to it. Block comments nest,
and a comment without an end is the last thing in its text.
-/

set_option autoImplicit false

namespace DartBindings.Source

open Text

/-! ## Block comments -/

/-- A mark that opens or closes a block comment starts the text. -/
def StartsMark (text : List Char) : Prop :=
  ['/', '*'] <+: text ∨ ['*', '/'] <+: text

/-- What follows the mark that opens a block comment, through the mark that closes it. -/
inductive CommentRest : List Char → Prop where
  | closing : CommentRest ['*', '/']
  | char {c rest} : ¬ StartsMark (c :: rest) → CommentRest rest → CommentRest (c :: rest)
  | nested {inner rest} : CommentRest inner → CommentRest rest →
      CommentRest ('/' :: '*' :: (inner ++ rest))

/-- Rests of comments, one for each of the open levels. -/
inductive CommentRests : Nat → List Char → Prop where
  | none : CommentRests 0 []
  | more {depth first rest} : CommentRest first → CommentRests depth rest →
      CommentRests (depth + 1) (first ++ rest)

section Block

variable {depth : Nat} {text rest : List Char} {c : Char}

theorem CommentRest.nonempty (closed : CommentRest text) : text ≠ [] := by
  cases closed <;> exact List.cons_ne_nil _ _

theorem startsMark_cons_cons {d : Char} :
    StartsMark (c :: d :: rest) ↔ c = '/' ∧ d = '*' ∨ c = '*' ∧ d = '/' := by
  simp only [StartsMark, List.cons_prefix_cons, List.nil_prefix, and_true, eq_comm]

theorem startsMark_append (nonempty : text ≠ []) :
    StartsMark (c :: (text ++ rest)) ↔ StartsMark (c :: text) := by
  obtain ⟨d, text, rfl⟩ := List.exists_cons_of_ne_nil nonempty
  rw [List.cons_append, startsMark_cons_cons, startsMark_cons_cons]

theorem blockLength_char (other : ¬ StartsMark (c :: rest)) :
    blockLength depth (c :: rest) = blockLength depth rest + 1 := by
  cases rest with
  | nil => simp [blockLength]
  | cons d rest =>
      rw [startsMark_cons_cons, not_or] at other
      rw [blockLength_cons_cons, if_neg other.1, if_neg other.2]

/-- The rest of a comment closes one level. -/
theorem CommentRest.blockLength (closed : CommentRest text) (depth : Nat) (rest : List Char) :
    Source.blockLength (depth + 1) (text ++ rest) =
      (if depth = 0 then 0 else Source.blockLength depth rest) + text.length := by
  induction closed generalizing depth rest with
  | closing =>
      rw [List.cons_append, List.cons_append, blockLength_cons_cons]
      cases depth <;> simp
  | @char c text other closed ih =>
      have still : ¬ StartsMark (c :: (text ++ rest)) :=
        fun starts => other ((startsMark_append closed.nonempty).mp starts)
      rw [List.cons_append, blockLength_char still, ih, List.length_cons, Nat.add_assoc]
  | @nested inner text _ _ inside later =>
      rw [List.cons_append, List.cons_append, Source.blockLength, List.append_assoc,
        inside (depth + 1), if_neg (Nat.succ_ne_zero depth), later]
      simp only [List.length_cons, List.length_append]
      omega

/-- A text closes all levels, or it is read to its end. -/
theorem commentRests_or (positive : 0 < depth) :
    (∃ front rest, text = front ++ rest ∧ CommentRests depth front) ∨
      blockLength depth text = text.length := by
  induction depth, text using blockLength.induct with
  | case1 depth text ih =>
      rcases ih (Nat.succ_pos depth) with ⟨_, rest, rfl, closed⟩ | whole
      · -- The first rest is that of the comment that opens here.
        cases closed with
        | @more _ inner _ nested outer =>
          cases outer with
          | none => exact absurd positive (Nat.lt_irrefl 0)
          | @more depth first later closed others =>
              refine .inl ⟨'/' :: '*' :: (inner ++ first) ++ later, rest, by simp, ?_⟩
              exact .more (.nested nested closed) others
      · exact .inr (by rw [blockLength, whole]; rfl)
  | case2 depth text shallow =>
      obtain rfl : depth = 1 := by omega
      exact .inl ⟨['*', '/'], text, rfl, .more .closing .none⟩
  | case3 depth text deep ih =>
      obtain ⟨less, rfl⟩ : ∃ less, depth = less + 1 := ⟨depth - 1, by omega⟩
      rcases ih (by omega) with ⟨front, rest, rfl, closed⟩ | whole
      · exact .inl ⟨['*', '/'] ++ front, rest, rfl, .more .closing closed⟩
      · exact .inr (by rw [blockLength, if_neg deep, whole]; rfl)
  | case4 depth c text noOpening noClosing ih =>
      have other : ¬ StartsMark (c :: text) := by
        intro starts
        rcases starts with ⟨rest, same⟩ | ⟨rest, same⟩
        · exact noOpening rest (List.cons.inj same).1.symm (List.cons.inj same).2.symm
        · exact noClosing rest (List.cons.inj same).1.symm (List.cons.inj same).2.symm
      rcases ih positive with ⟨front, rest, rfl, closed⟩ | whole
      · cases closed with
        | none => exact absurd positive (Nat.lt_irrefl 0)
        | @more depth first later closed others =>
            refine .inl ⟨c :: first ++ later, rest, rfl, .more (.char ?_ closed) others⟩
            rw [List.append_assoc] at other
            exact fun starts => other ((startsMark_append closed.nonempty).mpr starts)
      · exact .inr (by rw [blockLength_char other, whole, List.length_cons])
  | case5 depth => exact .inr (by simp [blockLength])

theorem block_closed_or_unclosed (text : List Char) :
    (∃ front rest, text = front ++ rest ∧ CommentRest front ∧
        blockLength 1 text = front.length) ∨
      (∀ front, front <+: text → ¬ CommentRest front) ∧ blockLength 1 text = text.length := by
  by_cases closes : ∃ front, front <+: text ∧ CommentRest front
  · obtain ⟨front, ⟨rest, rfl⟩, closed⟩ := closes
    refine .inl ⟨front, rest, rfl, closed, ?_⟩
    rw [closed.blockLength 0 rest, if_pos rfl, Nat.zero_add]
  · have unclosed : ∀ front, front <+: text → ¬ CommentRest front :=
      fun front start closed => closes ⟨front, start, closed⟩
    refine .inr ⟨unclosed, ?_⟩
    have read := @commentRests_or 1 text Nat.one_pos
    rcases read with ⟨_, rest, rfl, closed⟩ | whole
    · cases closed with
      | @more _ front later closed _ =>
          rw [List.append_assoc] at unclosed
          exact absurd closed (unclosed front (List.prefix_append front _))
    · exact whole

end Block

/-! ## Lines -/

theorem line_ended_or_last (text : List Char) :
    (∃ line rest, text = line ++ '\n' :: rest ∧ '\n' ∉ line ∧
        lineLength text = line.length + 1) ∨
      '\n' ∉ text ∧ lineLength text = text.length := by
  induction text with
  | nil => exact .inr ⟨List.not_mem_nil, rfl⟩
  | cons c text ih =>
      by_cases ends : c = '\n'
      · subst ends
        exact .inl ⟨[], text, rfl, List.not_mem_nil, by rw [lineLength, if_pos rfl]; rfl⟩
      · have length : lineLength (c :: text) = lineLength text + 1 := by
          rw [lineLength, if_neg ends]
        rcases ih with ⟨line, rest, rfl, single, ih⟩ | ⟨single, ih⟩
        · refine .inl ⟨c :: line, rest, rfl, ?_, by rw [length, ih, List.length_cons]⟩
          exact List.not_mem_cons_of_ne_of_not_mem (Ne.symm ends) single
        · refine .inr ⟨?_, by rw [length, ih, List.length_cons]⟩
          exact List.not_mem_cons_of_ne_of_not_mem (Ne.symm ends) single

/-! ## Trivia -/

/-- Blanks and comments one after the other. A comment without an end may come last if the text
ends there. -/
inductive Trivia (ended : Prop) : List Char → Prop where
  | nil : Trivia ended []
  | blank {c rest} : isBlank c = true → Trivia ended rest → Trivia ended (c :: rest)
  | line {line rest} : '\n' ∉ line → Trivia ended rest →
      Trivia ended ('/' :: '/' :: (line ++ '\n' :: rest))
  | block {inside rest} : CommentRest inside → Trivia ended rest →
      Trivia ended ('/' :: '*' :: (inside ++ rest))
  | lastLine {line} : ended → '\n' ∉ line → Trivia ended ('/' :: '/' :: line)
  | unclosed {inside} : ended → (∀ front, front <+: inside → ¬ CommentRest front) →
      Trivia ended ('/' :: '*' :: inside)

/-- A comment that starts a text is trivia, with the trivia after it. -/
theorem Trivia.of_comment {text : List Char} {n : Nat} (comment : commentLength text = n + 1) :
    (∃ front rest, text = front ++ rest ∧ n + 1 = front.length ∧
        ∀ {ended more}, Trivia ended more → Trivia ended (front ++ more)) ∨
      n + 1 = text.length ∧ Trivia True text := by
  unfold commentLength at comment
  split at comment
  · rename_i text
    rcases line_ended_or_last text with ⟨line, rest, rfl, single, length⟩ | ⟨single, length⟩
    · refine .inl ⟨'/' :: '/' :: (line ++ ['\n']), rest, by simp, ?_, fun later => ?_⟩
      · rw [← comment, length]
        simp
      · simpa using Trivia.line single later
    · exact .inr ⟨by rw [← comment, length]; rfl, .lastLine trivial single⟩
  · rename_i text
    rcases block_closed_or_unclosed text with ⟨front, rest, rfl, closed, length⟩ | ⟨none, length⟩
    · refine .inl ⟨'/' :: '*' :: front, rest, rfl, ?_, fun later => .block closed later⟩
      rw [← comment, length]
      rfl
    · exact .inr ⟨by rw [← comment, length]; rfl, .unclosed trivial none⟩
  · cases comment

/-- What is skipped at the start of a text is trivia. -/
theorem exists_trivia (text : List Char) :
    ∃ front rest, text = front ++ rest ∧ triviaLength text = front.length ∧
      Trivia (rest = []) front := by
  induction text using triviaLength.induct with
  | case1 => exact ⟨[], [], rfl, triviaLength_nil, .nil⟩
  | case2 c text blank ih =>
      obtain ⟨front, rest, rfl, length, trivia⟩ := ih
      refine ⟨c :: front, rest, rfl, ?_, .blank blank trivia⟩
      rw [triviaLength_blank blank, length, List.length_cons]
  | case3 c text solid comment =>
      refine ⟨[], c :: text, rfl, ?_, .nil⟩
      exact triviaLength_eq_zero_iff.mpr ⟨by simpa using solid, comment⟩
  | case4 c text _ n comment ih =>
      have length := triviaLength_comment comment
      rcases Trivia.of_comment comment with ⟨first, later, split, size, closed⟩ | ⟨size, trivia⟩
      · have behind : text.drop n = later := by
          have dropped := congrArg (List.drop (n + 1)) split
          rwa [List.drop_succ_cons, size, List.drop_left] at dropped
        rw [behind] at ih length
        obtain ⟨front, rest, rfl, rests, trivia⟩ := ih
        refine ⟨first ++ front, rest, by rw [split, List.append_assoc], ?_, closed trivia⟩
        rw [length, rests, size, List.length_append, Nat.add_comm]
      · have behind : text.drop n = [] := List.drop_of_length_le (by simpa using size.ge)
        refine ⟨c :: text, [], (List.append_nil _).symm, ?_, by simpa using trivia⟩
        rw [length, behind, triviaLength_nil, Nat.zero_add, size]

end DartBindings.Source
