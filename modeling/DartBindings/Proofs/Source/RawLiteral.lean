import DartBindings.Proofs.Source.Groups
import DartBindings.Proofs.Source.Literal

/-!
Raw literals between triple quotes, in which a backslash is a character like any other. The reader
of literals takes it for an escape there too, so the mark is found in every context only for
contents whose backslashes do no harm as escapes.
-/

set_option autoImplicit false

namespace DartBindings.Source

open Text

/-- What a raw literal without templates may contain. -/
structure RawContents (text : List Char) : Prop where
  noMark : ¬ tripleQuote <:+: text
  noQuote : text.getLast? ≠ some '"'
  noCode : ¬ ['$', '\x7b'] <:+: text

/-- No backslash is the last character, and parentheses that open after one are closed, when a
backslash is read with the character after it. -/
inductive Escaped : List Char → Prop where
  | nil : Escaped []
  | char {c rest} : c ≠ '\\' → Escaped rest → Escaped (c :: rest)
  | pair {c rest} : c ≠ '(' → Escaped rest → Escaped ('\\' :: c :: rest)
  | code {inside rest} :
      closingIndex (some '(') (some ')') 1 (inside ++ ')' :: rest) = some inside.length →
      Escaped rest → Escaped ('\\' :: '(' :: (inside ++ ')' :: rest))

variable {text rest : List Char} {c : Char}

theorem RawContents.suffix (raw : RawContents text) (suffix : rest <:+ text) :
    RawContents rest where
  noMark := fun mark => raw.noMark (mark.trans suffix.isInfix)
  noQuote := by
    obtain ⟨front, rfl⟩ := suffix
    intro quote
    apply raw.noQuote
    rw [List.getLast?_append, quote, Option.some_or]
  noCode := fun code => raw.noCode (code.trans suffix.isInfix)

/-- The mark does not start in the contents. -/
theorem RawContents.isPrefixOf_mark (raw : RawContents (c :: text)) (rest : List Char) :
    tripleQuote.isPrefixOf (c :: (text ++ rest)) = false := by
  rw [Bool.eq_false_iff]
  intro starts
  have mark : tripleQuote <+: (c :: text) ++ rest := List.isPrefixOf_iff_prefix.mp starts
  rcases Nat.lt_or_ge (c :: text).length 3 with short | long
  · have quotes : c :: text <+: tripleQuote :=
      List.prefix_of_prefix_length_le (List.prefix_append _ _) mark (Nat.le_of_lt short)
    obtain ⟨more, whole⟩ := quotes
    match text, whole with
    | [], whole =>
        cases whole
        exact raw.noQuote rfl
    | [d], whole =>
        cases whole
        exact raw.noQuote rfl
    | _ :: _ :: _, _ => exact absurd short (by simp)
  · have inside : tripleQuote <+: c :: text :=
      List.prefix_of_prefix_length_le mark (List.prefix_append _ _) long
    exact raw.noMark inside.isInfix

/-- A character other than a backslash is passed by itself. -/
theorem RawContents.contentLength_char (raw : RawContents (c :: text)) (plain : c ≠ '\\')
    (after : List Char) :
    contentLength tripleQuote (c :: (text ++ (tripleQuote ++ after))) =
      (contentLength tripleQuote (text ++ (tripleQuote ++ after))).map (· + 1) := by
  have goesOn := raw.isPrefixOf_mark (tripleQuote ++ after)
  obtain ⟨d, more, follows, next⟩ := LiteralKind.triple.exists_after text after
  change text ++ (tripleQuote ++ after) = d :: more at follows
  rw [follows] at goesOn ⊢
  have noCode : ¬ Interpolates c d '\x7d' := by
    intro starts
    cases starts
    rcases next with first | ⟨-, quote⟩
    · obtain ⟨text, rfl⟩ := List.head?_eq_some_iff.mp first
      exact raw.noCode (List.prefix_append ['$', '\x7b'] text).isInfix
    · cases quote
  exact Source.contentLength_char goesOn plain noCode (by simp [tripleQuote])

theorem RawContents.suffix_of_code {inside : List Char}
    (raw : RawContents ('\\' :: '(' :: (inside ++ ')' :: rest))) : RawContents rest :=
  raw.suffix ⟨'\\' :: '(' :: (inside ++ [')']), by simp⟩

/-- Parentheses after a backslash are passed with all that is in them. -/
theorem RawContents.contentLength_code {inside : List Char}
    (raw : RawContents ('\\' :: '(' :: (inside ++ ')' :: rest))) {more : List Char}
    (closed : closingIndex (some '(') (some ')') 1 ((inside ++ ')' :: rest) ++ more) =
      some inside.length) :
    contentLength tripleQuote ('\\' :: '(' :: ((inside ++ ')' :: rest) ++ more)) =
      (contentLength tripleQuote (rest ++ more)).map (· + (inside.length + 3)) := by
  have goesOn := raw.isPrefixOf_mark more
  rw [List.cons_append, List.append_assoc, List.cons_append] at goesOn
  rw [List.append_assoc, List.cons_append] at closed ⊢
  exact contentLength_closed goesOn .round closed

/-- Contents without harm are read as far as the mark. -/
theorem Escaped.contentLength (escaped : Escaped text) (raw : RawContents text)
    (after : List Char) :
    Source.contentLength tripleQuote (text ++ (tripleQuote ++ after)) =
      some (text.length + 3) := by
  induction escaped with
  | nil => exact contentLength_mark (List.isPrefixOf_iff_prefix.mpr (List.prefix_append _ _))
  | @char c text plain _ ih =>
      have later := ih (raw.suffix (List.suffix_cons c text))
      rw [List.cons_append, raw.contentLength_char plain after, later, Option.map_some,
        List.length_cons, Nat.add_right_comm]
  | @pair c text other _ ih =>
      have later := ih (raw.suffix ((List.suffix_cons c text).trans (List.suffix_cons '\\' _)))
      have goesOn := raw.isPrefixOf_mark (tripleQuote ++ after)
      rw [List.cons_append] at goesOn
      rw [List.cons_append, List.cons_append, contentLength_escape goesOn other, later,
        Option.map_some, List.length_cons, List.length_cons]
  | @code inside text closed _ ih =>
      obtain ⟨first, last⟩ := Interpolates.round.significant
      have closedThere := closingIndex_before first last closed (tripleQuote ++ after)
      rw [List.cons_append, List.cons_append, raw.contentLength_code closedThere,
        ih raw.suffix_of_code, Option.map_some]
      simp only [List.length_cons, List.length_append]
      congr 1
      omega

/-- Parentheses that are closed in a text with the mark and a word behind it are closed in the
text. -/
theorem closed_before_mark {n : Nat}
    (closed : closingIndex (some '(') (some ')') 1 (text ++ (tripleQuote ++ ['x'])) = some n) :
    ∃ inside rest, text = inside ++ ')' :: rest ∧ inside.length = n ∧
      closingIndex (some '(') (some ')') 1 (inside ++ ')' :: rest) = some n := by
  obtain ⟨c, same, here⟩ := closingIndex_getElem? closed
  cases same
  have inside : n < text.length := by
    by_contra beyond
    rw [List.getElem?_append_right (Nat.not_lt.mp beyond)] at here
    exact absurd (List.mem_of_getElem? here) (by decide)
  obtain ⟨first, last⟩ := Interpolates.round.significant
  have alone := closingIndex_alone first last (by decide) closed inside
  rw [List.getElem?_append_left inside] at here
  obtain ⟨bound, delimiter⟩ := List.getElem?_eq_some_iff.mp here
  have split : text = text.take n ++ ')' :: text.drop (n + 1) := by
    rw [← delimiter, ← List.drop_eq_getElem_cons bound, List.take_append_drop]
  refine ⟨text.take n, text.drop (n + 1), split, ?_, ?_⟩
  · rw [List.length_take, Nat.min_eq_left bound.le]
  · rwa [← split]

/-- Contents that are read as far as the mark, with a word behind it, do no harm. -/
theorem RawContents.escaped (raw : RawContents text)
    (read : contentLength tripleQuote (text ++ (tripleQuote ++ ['x'])) =
      some (text.length + 3)) : Escaped text := by
  induction size : text.length using Nat.strong_induction_on generalizing text with
  | _ length ih =>
    subst size
    -- What is left after the first step of the reader is read as far as the mark, too.
    have step {rest : List Char} {n : Nat} (suffix : RawContents rest) (positive : 0 < n)
        (first : contentLength tripleQuote (text ++ (tripleQuote ++ ['x'])) =
          (contentLength tripleQuote (rest ++ (tripleQuote ++ ['x']))).map (· + n))
        (size : text.length = rest.length + n) : Escaped rest := by
      rw [first] at read
      obtain ⟨m, later, whole⟩ := Option.map_eq_some_iff.mp read
      have tail : m = rest.length + 3 := by omega
      subst tail
      exact ih rest.length (by omega) suffix later rfl
    match text with
    | [] => exact .nil
    | c :: rest =>
        by_cases escape : c = '\\'
        · subst escape
          match rest with
          | [] => exact absurd read (by decide +kernel)
          | d :: rest =>
            have goesOn := raw.isPrefixOf_mark (tripleQuote ++ ['x'])
            rw [List.cons_append] at goesOn
            by_cases round : d = '('
            · subst round
              cases closed : closingIndex (some '(') (some ')') 1
                  (rest ++ (tripleQuote ++ ['x'])) with
              | none =>
                  rw [List.cons_append, List.cons_append,
                    contentLength_unclosed goesOn .round closed] at read
                  simp [tripleQuote] at read
              | some n =>
                  obtain ⟨inside, rest, rfl, rfl, alone⟩ := closed_before_mark closed
                  apply Escaped.code alone
                  apply step raw.suffix_of_code (Nat.succ_pos _) (raw.contentLength_code closed)
                  simp only [List.length_cons, List.length_append]
                  omega
            · have suffix : RawContents rest :=
                raw.suffix ((List.suffix_cons d rest).trans (List.suffix_cons '\\' _))
              exact .pair round (step suffix Nat.two_pos (contentLength_escape goesOn round) rfl)
        · have suffix := raw.suffix (List.suffix_cons c rest)
          exact .char escape (step suffix Nat.one_pos (raw.contentLength_char escape ['x']) rfl)

/-! ## Skipping -/

/-- A raw literal is skipped exactly in every context if and only if its backslashes do no harm as
escapes. -/
theorem skipLiteral_raw_iff (raw : RawContents text) :
    (∀ before after : List Char, after.head? ≠ some '"' →
      skipLiteral (before ++ (tripleQuote ++ (text ++ (tripleQuote ++ after)))) before.length =
        before.length + (tripleQuote ++ (text ++ tripleQuote)).length) ↔ Escaped text := by
  have skipped (before after : List Char) :
      skipLiteral (before ++ (tripleQuote ++ (text ++ (tripleQuote ++ after)))) before.length =
        before.length +
          ((contentLength tripleQuote (text ++ (tripleQuote ++ after))).getD 0 + 3) := by
    rw [skipLiteral, List.drop_left, literalLength_triple]
  have size : (tripleQuote ++ (text ++ tripleQuote)).length = text.length + 3 + 3 := by
    simp [tripleQuote]
  constructor
  · intro exact
    apply raw.escaped
    have here := exact [] ['x'] (by decide)
    rw [skipped, size] at here
    cases read : contentLength tripleQuote (text ++ (tripleQuote ++ ['x'])) with
    | none => exact absurd (eq_apostrophe_of_contentLength read) (by decide)
    | some n =>
        rw [read, Option.getD_some] at here
        congr 1
        omega
  · intro escaped before after _
    rw [skipped, size, escaped.contentLength raw after, Option.getD_some]

/-- In a regular expression, a group after a backslash is closed. -/
theorem skipLiteral_raw_pattern :
    let pattern := "^\\(\\d+\\)$".toList
    RawContents pattern ∧ Escaped pattern ∧
      skipLiteral
        ("val p = ".toList ++ (tripleQuote ++ (pattern ++ (tripleQuote ++ " z".toList)))) 8 =
          8 + 15 := by
  intro pattern
  have raw : RawContents pattern := ⟨by decide +kernel, by decide +kernel, by decide +kernel⟩
  have escaped : Escaped pattern := by
    have last : Escaped ['$'] := .char (by decide) .nil
    have group : closingIndex (some '(') (some ')') 1 ("\\d+\\".toList ++ ')' :: ['$']) =
        some 4 := by decide +kernel
    exact .char (by decide) (.code group last)
  have skipped := (skipLiteral_raw_iff raw).mpr escaped
  exact ⟨raw, escaped, skipped "val p = ".toList " z".toList (by decide +kernel)⟩

/-- The backslash at the end of a path takes the first quote of the mark with it, and the rest of
the text is lost. -/
theorem skipLiteral_raw_path :
    let path := "C:\\".toList
    let text := tripleQuote ++ (path ++ (tripleQuote ++ " x".toList))
    RawContents path ∧ skipLiteral text 0 = text.length ∧
      skipLiteral text 0 ≠ (tripleQuote ++ (path ++ tripleQuote)).length := by
  intro path text
  have raw : RawContents path := ⟨by decide +kernel, by decide +kernel, by decide +kernel⟩
  have lost : skipLiteral text 0 = text.length := by decide +kernel
  refine ⟨raw, lost, ?_⟩
  rw [lost]
  decide +kernel

end DartBindings.Source
