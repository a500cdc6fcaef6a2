import DartBindings.Proofs.Source.Closing
import DartBindings.Proofs.Source.Token

/-!
What the readers take from the front of a text does not depend on what comes after it. A reader
that stops inside the known part of a text stops there whatever follows. Only an apostrophe looks
further: whether it opens a literal is settled by the rest of its line.
-/

set_option autoImplicit false

namespace DartBindings.Source

open Text

variable {known more rest : List Char}

/-! ## Comments -/

theorem lineLength_pos (c : Char) (text : List Char) : 0 < lineLength (c :: text) := by
  rw [lineLength]
  split <;> exact Nat.succ_pos _

theorem lineLength_append (inside : lineLength (known ++ more) < known.length) :
    lineLength (known ++ rest) = lineLength (known ++ more) := by
  induction known with
  | nil => exact absurd inside (Nat.not_lt_zero _)
  | cons c known ih =>
      rw [List.cons_append, lineLength, List.length_cons] at inside
      rw [List.cons_append, List.cons_append, lineLength, lineLength]
      split
      · rfl
      · rename_i noBreak
        rw [if_neg noBreak] at inside
        rw [ih (Nat.lt_of_succ_lt_succ inside)]

theorem blockLength_cons_cons (depth : Nat) (c d : Char) (text : List Char) :
    blockLength depth (c :: d :: text) =
      if c = '/' ∧ d = '*' then blockLength (depth + 1) text + 2
      else if c = '*' ∧ d = '/' then
        if depth ≤ 1 then 2 else blockLength (depth - 1) text + 2
      else blockLength depth (d :: text) + 1 := by
  rw [blockLength.eq_def]
  split
  · rename_i same
    cases same
    simp
  · rename_i same
    cases same
    simp
  · rename_i noOpening noClosing same
    cases same
    rw [if_neg, if_neg]
    · rintro ⟨rfl, rfl⟩
      exact noClosing _ rfl rfl
    · rintro ⟨rfl, rfl⟩
      exact noOpening _ rfl rfl
  · rename_i same
    cases same

theorem blockLength_pos (depth : Nat) (c : Char) (text : List Char) :
    0 < blockLength depth (c :: text) := by
  cases text with
  | nil => simp [blockLength]
  | cons d text =>
      rw [blockLength_cons_cons]
      repeat' split
      all_goals omega

theorem blockLength_append {depth : Nat}
    (inside : blockLength depth (known ++ more) < known.length) :
    blockLength depth (known ++ rest) = blockLength depth (known ++ more) := by
  -- Two characters are read at a time, so the induction is on the length.
  induction size : known.length using Nat.strong_induction_on generalizing known depth with
  | _ n ih =>
    match known with
    | [] => exact absurd inside (Nat.not_lt_zero _)
    | [c] =>
        have := blockLength_pos depth c more
        rw [List.singleton_append, List.length_singleton] at inside
        omega
    | c :: d :: known =>
        simp only [List.cons_append, List.length_cons] at inside size ⊢
        rw [blockLength_cons_cons] at inside ⊢
        rw [blockLength_cons_cons]
        split
        · rename_i opens
          rw [if_pos opens] at inside
          rw [ih known.length (by omega) (by omega) rfl]
        · rename_i noOpening
          rw [if_neg noOpening] at inside
          split
          · rename_i closes
            rw [if_pos closes] at inside
            split
            · rfl
            · rename_i deep
              rw [if_neg deep] at inside
              rw [ih known.length (by omega) (by omega) rfl]
          · rename_i noClosing
            rw [if_neg noClosing, ← List.cons_append] at inside
            rw [← List.cons_append, ← List.cons_append,
              ih (d :: known).length (by rw [List.length_cons]; omega)
                (by rw [List.length_cons]; omega) rfl]

theorem commentLength_cons_cons (c d : Char) (text : List Char) :
    commentLength (c :: d :: text) =
      if c = '/' ∧ d = '/' then lineLength text + 2
      else if c = '/' ∧ d = '*' then blockLength 1 text + 2
      else 0 := by
  rw [commentLength.eq_def]
  split
  · rename_i same
    cases same
    simp
  · rename_i same
    cases same
    simp
  · rename_i noLine noBlock
    rw [if_neg, if_neg]
    · rintro ⟨rfl, rfl⟩
      exact noBlock _ rfl
    · rintro ⟨rfl, rfl⟩
      exact noLine _ rfl

theorem commentLength_append (inside : commentLength (known ++ more) < known.length)
    (settled : 2 ≤ known.length) :
    commentLength (known ++ rest) = commentLength (known ++ more) := by
  match known with
  | c :: d :: known =>
      simp only [List.cons_append, List.length_cons] at inside ⊢
      rw [commentLength_cons_cons] at inside ⊢
      rw [commentLength_cons_cons]
      split
      · rename_i line
        rw [if_pos line] at inside
        rw [@lineLength_append known more rest (by omega)]
      · rename_i noLine
        rw [if_neg noLine] at inside
        split
        · rename_i block
          rw [if_pos block] at inside
          rw [@blockLength_append known more rest 1 (by omega)]
        · rfl

/-! ## Groups -/

/-- At the offset that a search finds stands the delimiter. -/
theorem closingIndex_getElem? {opening closing : Option Char} {depth n : Nat} {text : List Char}
    (found : closingIndex opening closing depth text = some n) :
    ∃ c, some c = closing ∧ text[n]? = some c := by
  induction size : text.length using Nat.strong_induction_on generalizing text depth n with
  | _ length ih =>
    subst size
    match text with
    | [] =>
        rw [closingIndex_nil] at found
        cases found
    | c :: rest =>
        -- Every step goes on with a shorter text, which has the delimiter.
        have step : ∀ {level skipped : Nat},
            (closingIndex opening closing level (rest.drop skipped)).map (· + (skipped + 1)) =
              some n → ∃ d, some d = closing ∧ (c :: rest)[n]? = some d := by
          intro level skipped later
          obtain ⟨m, there, rfl⟩ := Option.map_eq_some_iff.mp later
          obtain ⟨d, same, here⟩ :=
            ih _ (by rw [List.length_drop, List.length_cons]; omega) there rfl
          rw [List.getElem?_drop, Nat.add_comm] at here
          exact ⟨d, same, by rwa [← Nat.add_assoc, List.getElem?_cons_succ]⟩
        cases quote : isQuote c with
        | true =>
            rw [closingIndex_literal quote] at found
            exact step found
        | false =>
            cases comment : commentLength (c :: rest) with
            | succ n =>
                rw [closingIndex_cons, quote, comment] at found
                exact step found
            | zero =>
                rcases closingIndex_char quote opening closing depth with
                  ⟨same, ends⟩ | ⟨level, -, goesOn⟩
                · rw [ends rest comment] at found
                  cases found
                  exact ⟨c, same, rfl⟩
                · rw [goesOn rest comment] at found
                  exact @step level 0 found

theorem closingIndex_lt {opening closing : Option Char} {depth n : Nat} {text : List Char}
    (found : closingIndex opening closing depth text = some n) : n < text.length := by
  obtain ⟨c, -, here⟩ := closingIndex_getElem? found
  exact (List.getElem?_eq_some_iff.mp here).1

section Found

variable {text : List Char} {pos n : Nat} {opening closing : Option Char}

theorem findClosing_ok (found : findClosing text pos opening closing = .ok n) :
    ∃ m, n = pos + m ∧ closingIndex opening closing 1 (text.drop pos) = some m := by
  unfold findClosing at found
  split at found
  · rename_i m index
    cases found
    exact ⟨m, rfl, index⟩
  · cases found

theorem findClosing_eq :
    findClosing text pos opening closing =
      (closingIndex opening closing 1 (text.drop pos)).elim (.error ⟨pos, text.drop pos⟩)
        (fun m => .ok (pos + m)) := by
  unfold findClosing
  cases closingIndex opening closing 1 (text.drop pos) <;> rfl

theorem groupBody_eq (text : List Char) (start : Nat) (opening closing : Option Char) :
    groupBody text start opening closing =
      match findClosing text start opening closing with
      | .ok n => .ok ((text.drop start).take (n - start))
      | .error failure => .error failure := by
  unfold groupBody findClosing
  cases closingIndex opening closing 1 (text.drop start) with
  | none => rfl
  | some n => simp only [Nat.add_sub_cancel_left]

theorem groupBody_length {start : Nat} (found : findClosing text start opening closing = .ok n) :
    start + ((text.drop start).take (n - start)).length + 1 = n + 1 := by
  unfold findClosing at found
  split at found
  · rename_i m index
    have inside := closingIndex_lt index
    cases found
    rw [List.length_take]
    omega
  · cases found

end Found

/-! ## The contents of literals, one step at a time -/

/-- Two characters that start interpolated code, and the one that ends it. -/
inductive Interpolates : Char → Char → Char → Prop where
  | round : Interpolates '\\' '(' ')'
  | curly : Interpolates '$' '\x7b' '\x7d'

/-- How the contents of a literal may go on. -/
inductive ContentStep (mark : List Char) : List Char → Prop where
  | nil : ContentStep mark []
  | ends {c : Char} {rest : List Char} : mark.isPrefixOf (c :: rest) = true →
      ContentStep mark (c :: rest)
  | stray {rest : List Char} : mark = ['\''] → ContentStep mark ('\n' :: rest)
  | last {c : Char} : mark.isPrefixOf [c] = false → ¬ (c = '\n' ∧ mark = ['\'']) →
      ContentStep mark [c]
  | code {c d closing : Char} {rest : List Char} : mark.isPrefixOf (c :: d :: rest) = false →
      Interpolates c d closing → ContentStep mark (c :: d :: rest)
  | escape {d : Char} {rest : List Char} : mark.isPrefixOf ('\\' :: d :: rest) = false →
      d ≠ '(' → ContentStep mark ('\\' :: d :: rest)
  | char {c d : Char} {rest : List Char} : mark.isPrefixOf (c :: d :: rest) = false →
      c ≠ '\\' → ¬ Interpolates c d '\x7d' → ¬ (c = '\n' ∧ mark = ['\'']) →
      ContentStep mark (c :: d :: rest)

theorem contentStep (mark text : List Char) : ContentStep mark text := by
  match text with
  | [] => exact .nil
  | c :: rest =>
      cases ends : mark.isPrefixOf (c :: rest) with
      | true => exact .ends ends
      | false =>
          by_cases stray : c = '\n' ∧ mark = ['\'']
          · obtain ⟨rfl, rfl⟩ := stray
            exact .stray rfl
          · match rest with
            | [] => exact .last ends stray
            | d :: rest =>
                by_cases escape : c = '\\'
                · subst escape
                  by_cases round : d = '('
                  · subst round
                    exact .code ends .round
                  · exact .escape ends round
                · by_cases curly : c = '$' ∧ d = '\x7b'
                  · obtain ⟨rfl, rfl⟩ := curly
                    exact .code ends .curly
                  · refine .char ends escape ?_ stray
                    intro starts
                    cases starts
                    exact curly ⟨rfl, rfl⟩

section Content

variable {mark code : List Char} {c d closing : Char}

theorem contentLength_nil (mark : List Char) : contentLength mark [] = some 0 := by
  rw [contentLength.eq_def]

theorem contentLength_mark (ends : mark.isPrefixOf (c :: code) = true) :
    contentLength mark (c :: code) = some mark.length := by
  rw [contentLength.eq_def]
  simp only [ends, ↓reduceIte]

theorem contentLength_unclosed (goesOn : mark.isPrefixOf (c :: d :: code) = false)
    (starts : Interpolates c d closing)
    (unclosed : closingIndex (some d) (some closing) 1 code = none) :
    contentLength mark (c :: d :: code) = some (code.length + 2) := by
  rw [contentLength.eq_def]
  cases starts <;> simp [goesOn, unclosed]

theorem contentLength_interpolation (goesOn : mark.isPrefixOf (c :: d :: code) = false)
    (starts : Interpolates c d closing) {n : Nat}
    (closed : closingIndex (some d) (some closing) 1 code = some n) :
    contentLength mark (c :: d :: code) =
      (contentLength mark (code.drop (n + 1))).map (· + (n + 3)) := by
  rw [contentLength.eq_def]
  cases starts <;> simp [goesOn, closed]

theorem contentLength_escape (goesOn : mark.isPrefixOf ('\\' :: d :: code) = false)
    (other : d ≠ '(') :
    contentLength mark ('\\' :: d :: code) = (contentLength mark code).map (· + 2) := by
  rw [contentLength.eq_def]
  simp [goesOn, other]

theorem contentLength_stray (goesOn : List.isPrefixOf ['\''] ('\n' :: code) = false) :
    contentLength ['\''] ('\n' :: code) = none := by
  rw [contentLength.eq_def]
  simp [goesOn]

theorem contentLength_char (goesOn : mark.isPrefixOf (c :: d :: code) = false)
    (noEscape : c ≠ '\\') (noCode : ¬ Interpolates c d '\x7d')
    (literal : ¬ (c = '\n' ∧ mark = ['\''])) :
    contentLength mark (c :: d :: code) = (contentLength mark (d :: code)).map (· + 1) := by
  rw [contentLength.eq_def]
  by_cases dollar : c = '$'
  · subst dollar
    have noBrace : d ≠ '\x7b' := by
      rintro rfl
      exact noCode .curly
    simp [goesOn, noBrace]
  · have notStray : (c = '\n' && mark == ['\'']) = false := by
      simpa using literal
    simp [goesOn, noEscape, dollar, notStray]

theorem contentLength_last (goesOn : mark.isPrefixOf [c] = false)
    (literal : ¬ (c = '\n' ∧ mark = ['\''])) : contentLength mark [c] = some 1 := by
  have notStray : (c = '\n' && mark == ['\'']) = false := by
    simpa using literal
  rw [contentLength.eq_def]
  simp only [goesOn, notStray, contentLength_nil]
  repeat' split
  all_goals simp_all

/-- The reading of a literal is settled by the next step, or the step leads on to a shorter text. -/
theorem contentLength_step (mark text : List Char) :
    contentLength mark text = some text.length ∨
      mark <+: text ∧ contentLength mark text = some mark.length ∨
      (mark = ['\''] ∧ '\n' ∈ text) ∧ contentLength mark text = none ∨
      ∃ n, 0 < n ∧ n ≤ text.length ∧
        contentLength mark text = (contentLength mark (text.drop n)).map (· + n) := by
  cases contentStep mark text with
  | nil => exact .inl (contentLength_nil mark)
  | ends ends =>
      exact .inr (.inl ⟨List.isPrefixOf_iff_prefix.mp ends, contentLength_mark ends⟩)
  | stray apostrophe =>
      subst apostrophe
      exact .inr (.inr (.inl ⟨⟨rfl, List.mem_cons_self⟩, contentLength_stray rfl⟩))
  | last goesOn literal => exact .inl (contentLength_last goesOn literal)
  | @code c d closing rest goesOn starts =>
      cases closed : closingIndex (some d) (some closing) 1 rest with
      | none => exact .inl (contentLength_unclosed goesOn starts closed)
      | some n =>
          have inside := closingIndex_lt closed
          refine .inr (.inr (.inr ⟨n + 3, by omega, ?_,
            contentLength_interpolation goesOn starts closed⟩))
          simp only [List.length_cons]
          omega
  | escape goesOn other =>
      exact .inr (.inr (.inr ⟨2, by omega, by simp, contentLength_escape goesOn other⟩))
  | char goesOn noEscape noCode literal =>
      exact .inr (.inr (.inr ⟨1, by omega, by simp,
        contentLength_char goesOn noEscape noCode literal⟩))

/-- What is read of a literal ends with its mark, if it is not the whole text. -/
theorem contentLength_eq_or {text : List Char} {k : Nat} (read : contentLength mark text = some k) :
    k = text.length ∨ mark <:+ text.take k := by
  induction size : text.length using Nat.strong_induction_on generalizing text k with
  | _ length ih =>
    subst size
    rcases contentLength_step mark text with
      whole | ⟨starts, ended⟩ | ⟨-, stray⟩ | ⟨n, positive, inside, later⟩
    · exact .inl (Option.some.inj (read.symm.trans whole))
    · obtain rfl := Option.some.inj (read.symm.trans ended)
      rw [← List.prefix_iff_eq_take.mp starts]
      exact .inr (List.suffix_refl mark)
    · cases read.symm.trans stray
    · rw [later] at read
      obtain ⟨k, there, rfl⟩ := Option.map_eq_some_iff.mp read
      rcases ih (text.drop n).length (by rw [List.length_drop]; omega) there rfl with whole | ends
      · rw [List.length_drop] at whole
        exact .inl (by omega)
      · rw [Nat.add_comm, List.take_add]
        exact .inr (ends.trans (List.suffix_append _ _))

/-- Only an apostrophe opens no literal, and only because a line ends. -/
theorem stray_of_contentLength {text : List Char} (stray : contentLength mark text = none) :
    mark = ['\''] ∧ '\n' ∈ text := by
  induction size : text.length using Nat.strong_induction_on generalizing text with
  | _ length ih =>
    subst size
    rcases contentLength_step mark text with
      whole | ⟨-, ended⟩ | ⟨opensNone, -⟩ | ⟨n, positive, inside, later⟩
    · cases stray.symm.trans whole
    · cases stray.symm.trans ended
    · exact opensNone
    · rw [later, Option.map_eq_none_iff] at stray
      obtain ⟨apostrophe, member⟩ :=
        ih (text.drop n).length (by rw [List.length_drop]; omega) stray rfl
      exact ⟨apostrophe, List.mem_of_mem_drop member⟩

theorem eq_apostrophe_of_contentLength {text : List Char} (stray : contentLength mark text = none) :
    mark = ['\''] :=
  (stray_of_contentLength stray).1

end Content

/-! ## What comes after does not matter -/

/-- Whether an apostrophe in the known text opens a literal is settled in it: no line ends after
the known text. -/
def Settled (known more : List Char) : Prop :=
  '\n' ∉ more ∨ '\'' ∉ known

theorem Settled.suffix {suffix : List Char} (settled : Settled known more)
    (inside : suffix <:+ known) : Settled suffix more :=
  settled.imp_right fun free member => free (inside.subset member)

/-- A delimiter of which no trivia consists. -/
structure Significant (delimiter : Option Char) : Prop where
  solid : ∀ c, isBlank c = true → some c ≠ delimiter
  noSlash : some '/' ≠ delimiter

theorem significant_of_solid {c : Char} (solid : isBlank c = false) (noSlash : c ≠ '/') :
    Significant (some c) := by
  constructor
  · intro d blank same
    cases same
    rw [solid] at blank
    cases blank
  · intro same
    cases same
    exact noSlash rfl

theorem Interpolates.significant {c opening closing : Char}
    (starts : Interpolates c opening closing) :
    Significant (some opening) ∧ Significant (some closing) := by
  cases starts with
  | round =>
      exact ⟨significant_of_solid (by decide) (by decide),
        significant_of_solid (by decide) (by decide)⟩
  | curly =>
      exact ⟨significant_of_solid (by decide) (by decide),
        significant_of_solid (by decide) (by decide)⟩

/-- What the readers find inside the known text, they find whatever comes after it: `rest` in
place of `more`. -/
structure ReadsAlike (known more rest : List Char) : Prop where
  content : ∀ {mark k}, contentLength mark (known ++ more) = some k → k < known.length →
    contentLength mark (known ++ rest) = some k
  stray : '\n' ∉ more → ∀ {mark}, contentLength mark (known ++ more) = none →
    contentLength mark (known ++ rest) = none
  closing : ∀ {opening closing depth n}, Significant opening → Significant closing →
    closingIndex opening closing depth (known ++ more) = some n → n < known.length →
    closingIndex opening closing depth (known ++ rest) = some n

theorem isPrefixOf_append {mark : List Char} (short : mark.length ≤ known.length)
    (rest : List Char) : mark.isPrefixOf (known ++ rest) = mark.isPrefixOf known := by
  rw [Bool.eq_iff_iff, List.isPrefixOf_iff_prefix, List.isPrefixOf_iff_prefix]
  constructor
  · intro start
    exact List.prefix_of_prefix_length_le start (List.prefix_append known rest) short
  · intro start
    exact start.trans (List.prefix_append known rest)

theorem tailLength_pos (text : List Char) : 0 < tailLength '"' ('"' :: text) := by
  rw [tailLength.eq_def]
  split
  · exact Nat.succ_pos _
  · rw [contentLength_mark rfl]
    exact Nat.succ_pos _

theorem isPrefixOf_tripleQuote {c : Char} (inside : tailLength c (known ++ more) < known.length)
    (rest : List Char) :
    tripleQuote.isPrefixOf (c :: (known ++ rest)) =
      tripleQuote.isPrefixOf (c :: (known ++ more)) := by
  by_cases long : 2 ≤ known.length
  · have short : tripleQuote.length ≤ (c :: known).length := Nat.succ_le_succ long
    rw [← List.cons_append, ← List.cons_append, isPrefixOf_append short, isPrefixOf_append short]
  · match known with
    | [] => exact absurd inside (Nat.not_lt_zero _)
    | [d] =>
        have apart (text : List Char) : tripleQuote.isPrefixOf (c :: d :: text) = false := by
          rw [Bool.eq_false_iff]
          intro start
          rw [List.isPrefixOf_iff_prefix] at start
          obtain ⟨first, later⟩ := List.cons_prefix_cons.mp start
          obtain ⟨second, -⟩ := List.cons_prefix_cons.mp later
          rw [← first, ← second] at inside
          have positive := tailLength_pos more
          exact absurd (Nat.lt_one_iff.mp inside) (Nat.ne_of_gt positive)
        rw [List.singleton_append, List.singleton_append, apart, apart]
    | _ :: _ :: _ => exact absurd (Nat.le_add_left 2 _) long

theorem tailLength_append {c : Char} (alike : ∀ n, ReadsAlike (known.drop n) more rest)
    (settled : c = '\'' → '\n' ∉ more) (inside : tailLength c (known ++ more) < known.length) :
    tailLength c (known ++ rest) = tailLength c (known ++ more) := by
  have triple := isPrefixOf_tripleQuote inside rest
  unfold tailLength at inside ⊢
  rw [triple]
  split
  · rename_i opens
    rw [if_pos opens] at inside
    rw [List.drop_append_of_le_length (by omega)] at inside ⊢
    rw [List.drop_append_of_le_length (by omega)]
    cases read : contentLength tripleQuote (known.drop 2 ++ more) with
    | none => cases eq_apostrophe_of_contentLength read
    | some k =>
        rw [read, Option.getD_some] at inside
        rw [(alike 2).content read (by rw [List.length_drop]; omega)]
  · rename_i single
    rw [if_neg single] at inside
    cases read : contentLength [c] (known ++ more) with
    | none =>
        have noBreak := settled (List.cons.inj (eq_apostrophe_of_contentLength read)).1
        have stray := (alike 0).stray noBreak read
        rw [List.drop_zero] at stray
        rw [stray]
    | some k =>
        rw [read, Option.getD_some] at inside
        have same := (alike 0).content read inside
        rw [List.drop_zero] at same
        rw [same]

/-- The delimiter is found after the comment, and at a slash none is found. -/
theorem commentLength_le_of_closingIndex {opening closing : Option Char} {depth n : Nat}
    {text : List Char} (first : Significant opening) (last : Significant closing)
    (found : closingIndex opening closing depth ('/' :: text) = some n) :
    commentLength ('/' :: text) ≤ n ∧ 0 < n := by
  cases comment : commentLength ('/' :: text) with
  | zero =>
      have quote : isQuote '/' = false := by decide
      rcases closingIndex_char quote opening closing depth with ⟨same, -⟩ | ⟨level, -, goesOn⟩
      · exact absurd same last.noSlash
      · rw [goesOn text comment] at found
        obtain ⟨m, -, rfl⟩ := Option.map_eq_some_iff.mp found
        exact ⟨Nat.zero_le _, Nat.succ_pos m⟩
  | succ k =>
      rw [closingIndex_comment first.solid last.solid comment] at found
      obtain ⟨m, -, rfl⟩ := Option.map_eq_some_iff.mp found
      exact ⟨Nat.le_add_left _ m, Nat.succ_pos _⟩

theorem commentLength_append_of_closingIndex {opening closing : Option Char} {depth n : Nat}
    {c : Char} (first : Significant opening) (last : Significant closing)
    (found : closingIndex opening closing depth (c :: (known ++ more)) = some n)
    (inside : n < (c :: known).length) (rest : List Char) :
    commentLength (c :: (known ++ rest)) = commentLength (c :: (known ++ more)) := by
  by_cases slash : c = '/'
  · subst slash
    obtain ⟨bound, positive⟩ := commentLength_le_of_closingIndex first last found
    exact @commentLength_append ('/' :: known) more rest (Nat.lt_of_le_of_lt bound inside)
      (Nat.lt_of_le_of_lt positive inside)
  · rw [commentLength_of_ne slash, commentLength_of_ne slash]

/-- How the next step in the contents of a literal goes before `more` and before `rest`, where both
start with the known text. -/
inductive StepsAlike (mark known more rest : List Char) : Prop where
  | settled : contentLength mark (known ++ rest) = contentLength mark (known ++ more) →
      StepsAlike mark known more rest
  | whole : contentLength mark (known ++ more) = some (known ++ more).length →
      StepsAlike mark known more rest
  | inside {n : Nat} : 0 < n → n ≤ known.length →
      contentLength mark (known ++ more) =
        (contentLength mark (known.drop n ++ more)).map (· + n) →
      contentLength mark (known ++ rest) =
        (contentLength mark (known.drop n ++ rest)).map (· + n) →
      StepsAlike mark known more rest
  | beyond {n : Nat} : known.length < n →
      contentLength mark (known ++ more) =
        (contentLength mark ((known ++ more).drop n)).map (· + n) →
      StepsAlike mark known more rest

theorem stepsAlike {mark : List Char} {c d : Char} (alike : ReadsAlike known more rest)
    (same : mark.isPrefixOf (c :: d :: known ++ rest) = mark.isPrefixOf (c :: d :: known ++ more)) :
    StepsAlike mark (c :: d :: known) more rest := by
  simp only [List.cons_append] at same
  cases contentStep mark (c :: d :: (known ++ more)) with
  | ends ends =>
      exact .settled ((contentLength_mark (same.trans ends)).trans (contentLength_mark ends).symm)
  | stray apostrophe =>
      subst apostrophe
      exact .settled ((contentLength_stray rfl).trans (contentLength_stray rfl).symm)
  | @code _ _ closing _ goesOn starts =>
      obtain ⟨first, last⟩ := starts.significant
      cases closed : closingIndex (some d) (some closing) 1 (known ++ more) with
      | none => exact .whole (contentLength_unclosed goesOn starts closed)
      | some n =>
          have there := contentLength_interpolation goesOn starts closed
          by_cases within : n < known.length
          · have closedToo := alike.closing first last closed within
            have here := contentLength_interpolation (same.trans goesOn) starts closedToo
            rw [List.drop_append_of_le_length within] at there here
            exact .inside (Nat.succ_pos _) (Nat.add_le_add_right within 2) there here
          · refine .beyond ?_ there
            simp only [List.length_cons]
            omega
  | escape goesOn other =>
      exact .inside Nat.two_pos (Nat.le_add_left 2 _) (contentLength_escape goesOn other)
        (contentLength_escape (same.trans goesOn) other)
  | char goesOn noEscape noCode literal =>
      exact .inside Nat.one_pos (Nat.le_add_left 1 _)
        (contentLength_char goesOn noEscape noCode literal)
        (contentLength_char (same.trans goesOn) noEscape noCode literal)

section Shorter

variable
  (shorter : ∀ other : List Char, other.length < known.length → Settled other more →
    ReadsAlike other more rest)
  (settled : Settled known more)

include shorter settled

theorem contentLength_append {mark : List Char} {k : Nat}
    (read : contentLength mark (known ++ more) = some k) (inside : k < known.length) :
    contentLength mark (known ++ rest) = some k := by
  have bound : mark.length ≤ k := by
    rcases contentLength_eq_or read with whole | ends
    · rw [List.length_append] at whole
      omega
    · exact ends.length_le.trans (List.length_take_le _ _)
  have same : mark.isPrefixOf (known ++ rest) = mark.isPrefixOf (known ++ more) := by
    rw [isPrefixOf_append (by omega), isPrefixOf_append (by omega)]
  match known with
  | [c] =>
      obtain rfl : k = 0 := by simpa using inside
      obtain rfl := List.length_eq_zero_iff.mp (Nat.le_zero.mp bound)
      rw [List.singleton_append, contentLength_mark rfl] at read ⊢
      exact read
  | c :: d :: known =>
      have inner := shorter known (by simp only [List.length_cons]; omega)
        (settled.suffix ⟨[c, d], rfl⟩)
      cases stepsAlike inner same with
      | settled alike => rwa [alike]
      | whole whole =>
          obtain rfl := Option.some.inj (read.symm.trans whole)
          rw [List.length_append] at inside
          omega
      | @inside n positive within there here =>
          rw [there] at read
          obtain ⟨k, later, rfl⟩ := Option.map_eq_some_iff.mp read
          have alike := shorter _ (by rw [List.length_drop]; omega)
            (settled.suffix (List.drop_suffix n _))
          rw [here, alike.content later (by rw [List.length_drop]; omega), Option.map_some]
      | beyond ahead there =>
          rw [there] at read
          obtain ⟨k, -, rfl⟩ := Option.map_eq_some_iff.mp read
          omega

theorem contentLength_stray_append (noBreak : '\n' ∉ more) {mark : List Char}
    (stray : contentLength mark (known ++ more) = none) :
    contentLength mark (known ++ rest) = none := by
  obtain ⟨rfl, lineEnd⟩ := stray_of_contentLength stray
  match known with
  | [] => exact absurd lineEnd noBreak
  | [c] =>
      -- The line ends in the known text, so it ends here.
      rcases List.mem_cons.mp lineEnd with rfl | later
      · exact contentLength_stray rfl
      · exact absurd later noBreak
  | c :: d :: known =>
      have same : List.isPrefixOf ['\''] (c :: d :: known ++ rest) =
          List.isPrefixOf ['\''] (c :: d :: known ++ more) := rfl
      have inner := shorter known (by simp only [List.length_cons]; omega) (.inl noBreak)
      cases stepsAlike inner same with
      | settled alike => rwa [alike]
      | whole whole => cases stray.symm.trans whole
      | @inside n positive within there here =>
          rw [there, Option.map_eq_none_iff] at stray
          have alike := shorter ((c :: d :: known).drop n) (by rw [List.length_drop]; omega)
            (.inl noBreak)
          rw [here, alike.stray noBreak stray, Option.map_none]
      | beyond ahead there =>
          rw [there, Option.map_eq_none_iff, List.drop_append,
            List.drop_of_length_le ahead.le, List.nil_append] at stray
          exact absurd (List.mem_of_mem_drop (stray_of_contentLength stray).2) noBreak

theorem closingIndex_append {opening closing : Option Char} {depth n : Nat}
    (first : Significant opening) (last : Significant closing)
    (found : closingIndex opening closing depth (known ++ more) = some n)
    (inside : n < known.length) :
    closingIndex opening closing depth (known ++ rest) = some n := by
  match known with
  | c :: known =>
      -- What is found after a step of some characters is found there in both texts.
      have step : ∀ {level skipped : Nat},
          (closingIndex opening closing level ((known ++ more).drop skipped)).map
            (· + (skipped + 1)) = some n →
          (closingIndex opening closing level ((known ++ rest).drop skipped)).map
            (· + (skipped + 1)) = some n := by
        intro level skipped later
        obtain ⟨m, there, rfl⟩ := Option.map_eq_some_iff.mp later
        rw [List.length_cons] at inside
        rw [List.drop_append_of_le_length (by omega)] at there ⊢
        have alike := shorter (known.drop skipped)
          (by simp only [List.length_cons, List.length_drop]; omega)
          (settled.suffix ((List.drop_suffix _ _).trans ⟨[c], rfl⟩))
        rw [alike.closing first last there (by rw [List.length_drop]; omega), Option.map_some]
      simp only [List.cons_append] at found ⊢
      cases quote : isQuote c with
      | true =>
          rw [closingIndex_literal quote] at found ⊢
          have same : tailLength c (known ++ rest) = tailLength c (known ++ more) := by
            refine tailLength_append (fun k => shorter (known.drop k) ?_ ?_) ?_ ?_
            · simp only [List.length_cons, List.length_drop]
              omega
            · exact settled.suffix ((List.drop_suffix _ _).trans ⟨[c], rfl⟩)
            · rintro rfl
              exact settled.resolve_right fun free => free List.mem_cons_self
            · obtain ⟨m, there, rfl⟩ := Option.map_eq_some_iff.mp found
              rw [List.length_cons] at inside
              omega
          rw [same]
          exact step found
      | false =>
          have same := commentLength_append_of_closingIndex first last found inside rest
          cases comment : commentLength (c :: (known ++ more)) with
          | succ k =>
              rw [closingIndex_comment first.solid last.solid comment] at found
              rw [closingIndex_comment first.solid last.solid (same.trans comment)]
              exact step found
          | zero =>
              rcases closingIndex_char quote opening closing depth with
                ⟨-, ends⟩ | ⟨level, -, goesOn⟩
              · rw [ends _ comment] at found
                rw [ends _ (same.trans comment), found]
              · rw [goesOn _ comment] at found
                rw [goesOn _ (same.trans comment)]
                exact @step level 0 found

end Shorter

theorem readsAlike (settled : Settled known more) (rest : List Char) :
    ReadsAlike known more rest := by
  induction size : known.length using Nat.strong_induction_on generalizing known with
  | _ length ih =>
    subst size
    have shorter (other : List Char) (less : other.length < known.length)
        (settled : Settled other more) : ReadsAlike other more rest :=
      ih other.length less settled rfl
    exact ⟨contentLength_append shorter settled, contentLength_stray_append shorter settled,
      closingIndex_append shorter settled⟩

end DartBindings.Source
