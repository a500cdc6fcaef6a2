import DartBindings.Proofs.Source.Trivia
import DartBindings.Source.Closing

/-!
How the search for a closing delimiter passes over a text, one character, literal or stretch of
trivia at a time.
-/

set_option autoImplicit false

namespace DartBindings.Source

open Text

variable {opening closing : Option Char} {depth : Nat} {c : Char} {rest : List Char}

theorem map_add_map_add (found : Option Nat) (m n : Nat) :
    (found.map (· + m)).map (· + n) = found.map (· + (m + n)) := by
  cases found with
  | none => rfl
  | some k => simp only [Option.map_some, Nat.add_assoc]

@[simp] theorem closingIndex_nil (opening closing : Option Char) (depth : Nat) :
    closingIndex opening closing depth [] = none := by
  rw [closingIndex.eq_def]

theorem closingIndex_cons (opening closing : Option Char) (depth : Nat) (c : Char)
    (rest : List Char) :
    closingIndex opening closing depth (c :: rest) =
      if isQuote c then
        (closingIndex opening closing depth (rest.drop (tailLength c rest))).map
          (· + (tailLength c rest + 1))
      else
        match commentLength (c :: rest) with
        | n + 1 =>
          (closingIndex opening closing depth (rest.drop (n + triviaLength (rest.drop n)))).map
            (· + (n + triviaLength (rest.drop n) + 1))
        | 0 =>
          if some c = opening then
            (closingIndex opening closing (depth + 1) rest).map (· + 1)
          else if some c = closing then
            if depth ≤ 1 then some 0
            else (closingIndex opening closing (depth - 1) rest).map (· + 1)
          else (closingIndex opening closing depth rest).map (· + 1) :=
  closingIndex.eq_def opening closing depth (c :: rest)

theorem closingIndex_literal (quote : isQuote c = true) :
    closingIndex opening closing depth (c :: rest) =
      (closingIndex opening closing depth (rest.drop (tailLength c rest))).map
        (· + (tailLength c rest + 1)) := by
  rw [closingIndex_cons, if_pos quote]

theorem closingIndex_opening (quote : isQuote c = false) (comment : commentLength (c :: rest) = 0) :
    closingIndex (some c) closing depth (c :: rest) =
      (closingIndex (some c) closing (depth + 1) rest).map (· + 1) := by
  rw [closingIndex_cons, quote, comment]
  simp

theorem closingIndex_closing (quote : isQuote c = false) (comment : commentLength (c :: rest) = 0)
    (different : some c ≠ opening) :
    closingIndex opening (some c) depth (c :: rest) =
      if depth ≤ 1 then some 0
      else (closingIndex opening (some c) (depth - 1) rest).map (· + 1) := by
  rw [closingIndex_cons, quote, comment]
  simp [different]

theorem closingIndex_other (quote : isQuote c = false) (comment : commentLength (c :: rest) = 0)
    (notOpening : some c ≠ opening) (notClosing : some c ≠ closing) :
    closingIndex opening closing depth (c :: rest) =
      (closingIndex opening closing depth rest).map (· + 1) := by
  rw [closingIndex_cons, quote, comment]
  simp [notOpening, notClosing]

/-- A search ends at a character that starts neither a literal nor a comment, or goes on after it at
a level of its own, whatever comes next. -/
theorem closingIndex_char (quote : isQuote c = false) (opening closing : Option Char)
    (depth : Nat) :
    (some c = closing ∧ ∀ rest, commentLength (c :: rest) = 0 →
      closingIndex opening closing depth (c :: rest) = some 0) ∨
    ∃ level, (0 < depth → 0 < level) ∧ ∀ rest, commentLength (c :: rest) = 0 →
      closingIndex opening closing depth (c :: rest) =
        (closingIndex opening closing level rest).map (· + 1) := by
  by_cases opens : some c = opening
  · subst opens
    exact .inr ⟨depth + 1, fun _ => depth.succ_pos, fun rest => closingIndex_opening quote⟩
  · by_cases closes : some c = closing
    · subst closes
      by_cases last : depth ≤ 1
      · refine .inl ⟨rfl, fun rest comment => ?_⟩
        rw [closingIndex_closing quote comment opens, if_pos last]
      · refine .inr ⟨depth - 1, fun _ => by omega, fun rest comment => ?_⟩
        rw [closingIndex_closing quote comment opens, if_neg last]
    · exact .inr ⟨depth, id, fun rest comment => closingIndex_other quote comment opens closes⟩

/-- A character that no search heeds. -/
def Inert (opening closing : Option Char) (c : Char) : Prop :=
  isQuote c = false ∧ c ≠ '/' ∧ some c ≠ opening ∧ some c ≠ closing

theorem inert_of_class {p : Char → Bool} {first last c : Char} (member : p c = true)
    (quotes : p '"' = false ∧ p '\'' = false) (slash : p '/' = false) (opening : p first = false)
    (closing : p last = false) : Inert (some first) (some last) c := by
  refine ⟨isQuote_of_class member quotes.1 quotes.2, ne_of_class member slash, ?_, ?_⟩
  · simpa using ne_of_class member opening
  · simpa using ne_of_class member closing

theorem closingIndex_inert {run : List Char} (inert : ∀ c ∈ run, Inert opening closing c)
    (rest : List Char) :
    closingIndex opening closing depth (run ++ rest) =
      (closingIndex opening closing depth rest).map (· + run.length) := by
  induction run with
  | nil => simp
  | cons c run ih =>
      obtain ⟨quote, slash, notOpening, notClosing⟩ := inert c List.mem_cons_self
      rw [List.cons_append, closingIndex_other quote (commentLength_of_ne slash _) notOpening
        notClosing, ih fun d member => inert d (List.mem_cons_of_mem _ member), map_add_map_add,
        List.length_cons]

/-- The search passes over a comment and the trivia after it. -/
theorem closingIndex_commented {n : Nat} (comment : commentLength (c :: rest) = n + 1) :
    closingIndex opening closing depth (c :: rest) =
      (closingIndex opening closing depth ((c :: rest).drop (triviaLength (c :: rest)))).map
        (· + triviaLength (c :: rest)) := by
  have length : triviaLength (c :: rest) = n + triviaLength (rest.drop n) + 1 := by
    rw [triviaLength_comment comment]
    omega
  rw [closingIndex_cons, isQuote_of_commentLength comment, comment, length, List.drop_succ_cons]
  rfl

theorem closingIndex_trivia (blankOpening : ∀ c, isBlank c = true → some c ≠ opening)
    (blankClosing : ∀ c, isBlank c = true → some c ≠ closing) (text : List Char) :
    closingIndex opening closing depth text =
      (closingIndex opening closing depth (text.drop (triviaLength text))).map
        (· + triviaLength text) := by
  induction text using triviaLength.induct with
  | case1 => simp
  | case2 c rest blank ih =>
      rw [closingIndex_other (isQuote_of_isBlank blank) (commentLength_of_isBlank blank _)
        (blankOpening c blank) (blankClosing c blank), ih, triviaLength_blank blank,
        List.drop_succ_cons, map_add_map_add]
  | case3 c rest solid comment =>
      rw [triviaLength_eq_zero_iff.mpr ⟨by simpa using solid, comment⟩]
      simp
  | case4 c rest _ n comment _ => exact closingIndex_commented comment

/-- The trivia after a comment may as well be passed over on its own. -/
theorem closingIndex_comment (blankOpening : ∀ c, isBlank c = true → some c ≠ opening)
    (blankClosing : ∀ c, isBlank c = true → some c ≠ closing) {n : Nat}
    (comment : commentLength (c :: rest) = n + 1) :
    closingIndex opening closing depth (c :: rest) =
      (closingIndex opening closing depth (rest.drop n)).map (· + (n + 1)) := by
  rw [closingIndex_trivia blankOpening blankClosing, triviaLength_comment comment,
    closingIndex_trivia blankOpening blankClosing (rest.drop n), map_add_map_add, List.drop_drop,
    Nat.add_comm (triviaLength _) (n + 1), Nat.add_right_comm n 1, List.drop_succ_cons]

end DartBindings.Source
