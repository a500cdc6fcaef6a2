import DartBindings.Proofs.Source.Locality
import DartBindings.Proofs.Source.Stretch

/-!
The tokens of a text, read up to a place between two of them, make a stretch.
-/

set_option autoImplicit false

namespace DartBindings.Source

open Text

/-! ## Trivia -/

section Trivia

variable {known more : List Char}

theorem lineLength_followed (length : lineLength (known ++ more) = known.length)
    (followed : more ≠ []) (rest : List Char) :
    lineLength (known ++ rest) = known.length := by
  induction known with
  | nil =>
      obtain ⟨c, more, rfl⟩ := List.exists_cons_of_ne_nil followed
      exact absurd length (Nat.ne_of_gt (lineLength_pos c more))
  | cons c known ih =>
      rw [List.cons_append, lineLength, List.length_cons] at length
      rw [List.cons_append, lineLength, List.length_cons]
      split
      · rename_i ends
        rwa [if_pos ends] at length
      · rename_i goesOn
        rw [if_neg goesOn] at length
        rw [ih (Nat.succ.inj length)]

theorem blockLength_followed {depth : Nat}
    (length : blockLength depth (known ++ more) = known.length) (followed : more ≠ [])
    (rest : List Char) : blockLength depth (known ++ rest) = known.length := by
  induction size : known.length using Nat.strong_induction_on generalizing known depth with
  | _ n ih =>
    match known with
    | [] =>
        obtain ⟨c, more, rfl⟩ := List.exists_cons_of_ne_nil followed
        exact absurd length (Nat.ne_of_gt (blockLength_pos depth c more))
    | [c] =>
        obtain ⟨d, more, rfl⟩ := List.exists_cons_of_ne_nil followed
        have positive := blockLength_pos depth d more
        rw [List.singleton_append, blockLength_cons_cons, List.length_singleton] at length
        repeat' split at length
        all_goals omega
    | c :: d :: known =>
        simp only [List.cons_append, List.length_cons] at length size ⊢
        rw [blockLength_cons_cons] at length ⊢
        split
        · rename_i opens
          rw [if_pos opens] at length
          rw [ih known.length (by omega) (by omega) rfl]
          omega
        · rename_i noOpening
          rw [if_neg noOpening] at length
          split
          · rename_i closes
            rw [if_pos closes] at length
            split
            · rename_i shallow
              rw [if_pos shallow] at length
              omega
            · rename_i deep
              rw [if_neg deep] at length
              rw [ih known.length (by omega) (by omega) rfl]
              omega
          · rename_i noClosing
            rw [if_neg noClosing, ← List.cons_append] at length
            rw [← List.cons_append, ih (d :: known).length (by rw [List.length_cons]; omega)
              (by rw [List.length_cons]; omega) rfl, List.length_cons]
            omega

/-- A comment that ends before the text does ends there whatever comes after it. -/
theorem isComment_of_followed (nonempty : known ≠ [])
    (length : commentLength (known ++ more) = known.length) (followed : more ≠ []) :
    IsComment known := by
  intro rest
  match known with
  | [] => exact absurd rfl nonempty
  | [c] =>
      obtain ⟨d, more, rfl⟩ := List.exists_cons_of_ne_nil followed
      rw [List.singleton_append, commentLength_cons_cons, List.length_singleton] at length
      repeat' split at length
      all_goals omega
  | c :: d :: known =>
      simp only [List.cons_append, List.length_cons] at length ⊢
      rw [commentLength_cons_cons] at length ⊢
      split
      · rename_i line
        rw [if_pos line] at length
        rw [lineLength_followed (by omega) followed]
      · rename_i noLine
        rw [if_neg noLine] at length
        split
        · rename_i block
          rw [if_pos block] at length
          rw [blockLength_followed (by omega) followed]
        · rename_i none
          rw [if_neg none] at length
          cases length

theorem stretch_triviaLength (follow : Char → Prop) {text : List Char}
    (followed : triviaLength text < text.length) :
    Stretch follow (text.take (triviaLength text)) [] := by
  induction text using triviaLength.induct with
  | case1 => simp at followed
  | case2 c rest blank ih =>
      rw [triviaLength_blank blank, List.length_cons] at followed
      rw [triviaLength_blank blank, List.take_succ_cons]
      exact .blank blank (ih (Nat.lt_of_succ_lt_succ followed))
  | case3 c rest solid none =>
      rw [triviaLength_eq_zero_iff.mpr ⟨by simpa using solid, none⟩, List.take_zero]
      exact .nil
  | case4 c rest _ n comment ih =>
      rw [triviaLength_comment comment, List.length_cons] at followed
      have bound : triviaLength (rest.drop n) < (rest.drop n).length := by
        rw [List.length_drop]
        omega
      have split : (c :: rest).take (triviaLength (c :: rest)) =
          (c :: rest.take n) ++ (rest.drop n).take (triviaLength (rest.drop n)) := by
        rw [triviaLength_comment comment, ← Nat.add_assoc, List.take_succ_cons, List.cons_append,
          Nat.add_comm, List.take_add]
      rw [split]
      refine .comment ?_ (ih bound)
      have whole : c :: rest.take n ++ rest.drop n = c :: rest := by
        rw [List.cons_append, List.take_append_drop]
      apply isComment_of_followed (List.cons_ne_nil _ _)
      · rw [whole, comment, List.length_cons, List.length_take]
        omega
      · intro ended
        rw [ended] at bound
        cases bound

end Trivia

/-! ## Tokens -/

section Tokens

variable {text : List Char} {pos : Nat} {token : Token}

/-- No reader takes the token for something else: a literal is closed, and a quoted name is made
of plain characters. -/
structure Token.Plain (text : List Char) (token : Token) : Prop where
  closed : token.kind = .literal → ClosedLiteral token.value.toList
  plain : text[token.start]? = some backtick → ∀ c ∈ token.value.toList, isPlainNameChar c = true

theorem Token.plain_of_unquoted (noLiteral : token.kind ≠ .literal) (noBacktick : backtick ∉ text) :
    token.Plain text :=
  ⟨fun literal => absurd literal noLiteral,
    fun quoted => absurd (List.mem_of_getElem? quoted) noBacktick⟩

theorem tailLength_triple (rest : List Char) : 2 ≤ tailLength '"' ('"' :: '"' :: rest) := by
  rw [tailLength.eq_def]
  exact Nat.le_add_left 2 _

/-- Two quotes with a third one after them would have been read as a mark of three. -/
theorem not_quote_after {known more : List Char}
    (length : tailLength '"' (known ++ more) = known.length)
    (empty : '"' :: known = ['"', '"']) : more.head? ≠ some '"' := by
  intro third
  obtain ⟨after, rfl⟩ := List.head?_eq_some_iff.mp third
  obtain rfl : known = ['"'] := (List.cons.inj empty).2
  have triple := tailLength_triple after
  rw [List.singleton_append, List.length_singleton] at length
  omega

theorem takeWhile_follow (rest : List Char) (c : Char)
    (next : (rest.dropWhile isWordChar).head? = some c) : isWordChar c = false := by
  have ends := List.head?_dropWhile_not isWordChar rest
  rw [next] at ends
  simpa using ends

theorem dropWhile_isWordChar (rest : List Char) :
    rest.drop (rest.takeWhile isWordChar).length = rest.dropWhile isWordChar := by
  have whole := @List.takeWhile_append_dropWhile _ isWordChar rest
  have dropped := @List.drop_left _ (rest.takeWhile isWordChar) (rest.dropWhile isWordChar)
  rwa [whole] at dropped

theorem take_takeWhile (rest : List Char) :
    rest.take (rest.takeWhile isWordChar).length = rest.takeWhile isWordChar :=
  (List.prefix_iff_eq_take.mp (List.takeWhile_prefix _)).symm

theorem lexed_of_symbolAt {c : Char} {rest : List Char} (solid : triviaLength (c :: rest) = 0)
    (quote : isQuote c = false) (mark : c ≠ backtick) (word : isWordChar c = false)
    (unmarked : c = '@' → rest.takeWhile isWordChar = []) :
    Lexed (fun d => ((c :: rest).drop (symbolAt c rest).length).head? = some d)
      ((c :: rest).take (symbolAt c rest).length)
      ((symbolAt c rest).kind, String.ofList (symbolAt c rest).value) := by
  obtain ⟨noBlank, comment⟩ := triviaLength_eq_zero_iff.mp solid
  unfold symbolAt
  split
  · exact .arrow
  · exact .colons
  · rename_i noArrow noColons
    refine .symbol (by simp [isSymbolChar, noBlank, quote, word, mark]) ?_
    intro d next
    obtain ⟨rest, rfl⟩ : ∃ after, rest = d :: after := by
      cases rest with
      | nil => cases next
      | cons e rest => exact ⟨rest, by cases next; rfl⟩
    simp only [standsApart, Bool.and_eq_true, Bool.not_eq_true', Bool.and_eq_false_iff,
      Bool.or_eq_false_iff, beq_eq_false_iff_ne]
    refine ⟨⟨⟨?_, ?_⟩, ?_⟩, ?_⟩
    · refine Decidable.or_iff_not_imp_left.mpr fun dash => ?_
      rintro rfl
      exact noArrow rest (not_not.mp dash) rfl
    · refine Decidable.or_iff_not_imp_left.mpr fun colon => ?_
      rintro rfl
      exact noColons rest (not_not.mp colon) rfl
    · refine Decidable.or_iff_not_imp_left.mpr fun at' => ?_
      have none := unmarked (not_not.mp at')
      cases word : isWordChar d with
      | false => rfl
      | true =>
          rw [List.takeWhile_cons_of_pos word] at none
          cases none
    · refine Decidable.or_iff_not_imp_left.mpr fun slash => ?_
      rw [not_not.mp slash, commentLength_cons_cons] at comment
      constructor
      · rintro rfl
        simp at comment
      · rintro rfl
        simp at comment

theorem lexed_of_unquoted {c : Char} {rest : List Char} (solid : triviaLength (c :: rest) = 0)
    (quote : isQuote c = false) (mark : c ≠ backtick) :
    Lexed (fun d => ((c :: rest).drop (lexemeAt (rest.length + 1) c rest).length).head? = some d)
      ((c :: rest).take (lexemeAt (rest.length + 1) c rest).length)
      ((lexemeAt (rest.length + 1) c rest).kind,
        String.ofList (lexemeAt (rest.length + 1) c rest).value) := by
  have fits : (rest.takeWhile isWordChar).length ≤ rest.length :=
    (List.takeWhile_prefix _).length_le
  unfold lexemeAt
  simp only [quote, mark, Bool.false_eq_true, ↓reduceIte, Nat.add_sub_cancel,
    wordRun_of_fits fits]
  split
  · rename_i marker
    simp only [Bool.and_eq_true, decide_eq_true_eq, Bool.not_eq_true',
      List.isEmpty_eq_false_iff] at marker
    obtain ⟨rfl, some⟩ := marker
    simp only [List.take_succ_cons, List.drop_succ_cons, take_takeWhile, dropWhile_isWordChar]
    exact .marker ⟨some, fun d member => List.mem_takeWhile_imp member⟩ fun d =>
      takeWhile_follow rest d
  · rename_i noMarker
    split
    · rename_i word
      simp only [List.take_succ_cons, List.drop_succ_cons, take_takeWhile, dropWhile_isWordChar]
      refine .word ⟨List.cons_ne_nil _ _, ?_⟩ fun d => takeWhile_follow rest d
      intro d member
      rcases List.mem_cons.mp member with rfl | later
      · exact word
      · exact List.mem_takeWhile_imp later
    · rename_i noWord
      refine lexed_of_symbolAt solid quote mark (Bool.eq_false_iff.mpr noWord) ?_
      intro at'
      simpa [at'] using noMarker

theorem lexed_of_tailLength {quote : Char} {rest : List Char} (quoted : isQuote quote = true)
    (inside : tailLength quote rest ≤ rest.length)
    (closed : ClosedLiteral (quote :: rest.take (tailLength quote rest))) :
    Lexed (fun d => (rest.drop (tailLength quote rest)).head? = some d)
      (quote :: rest.take (tailLength quote rest))
      (.literal, String.ofList (quote :: rest.take (tailLength quote rest))) := by
  refine .literal quoted closed ?_
  intro empty
  obtain ⟨rfl, -⟩ := List.cons.inj empty
  apply not_quote_after _ empty
  rw [List.take_append_drop, List.length_take_of_le inside]

theorem lexed_of_quotedName {rest : List Char}
    (inside : (quotedName (rest.length + 1) rest).length < rest.length + 1)
    (plain : ∀ d ∈ (quotedName (rest.length + 1) rest).value, isPlainNameChar d = true) :
    Lexed (fun d =>
        ((backtick :: rest).drop (quotedName (rest.length + 1) rest).length).head? = some d)
      ((backtick :: rest).take (quotedName (rest.length + 1) rest).length)
      ((quotedName (rest.length + 1) rest).kind,
        String.ofList (quotedName (rest.length + 1) rest).value) := by
  unfold quotedName at inside plain ⊢
  rw [Nat.add_sub_cancel, List.take_length] at inside plain ⊢
  cases found : rest.findIdx? (· == backtick) with
  | none =>
      rw [found] at inside
      exact absurd inside (Nat.lt_irrefl _)
  | some n =>
      rw [found] at plain
      dsimp only at plain ⊢
      obtain ⟨bound, ends, -⟩ := List.findIdx?_eq_some_iff_getElem.mp found
      have split : (backtick :: rest).take (n + 2) = backtick :: (rest.take n ++ [backtick]) := by
        rw [List.take_succ_cons, List.take_succ_eq_append_getElem bound]
        simp only [beq_iff_eq] at ends
        rw [ends]
      rw [split]
      exact .quoted plain

/-- A token that does not end the text, read off the text. -/
theorem lexed_of_lexemeAt {c : Char} {rest : List Char} (solid : triviaLength (c :: rest) = 0)
    (inside : (lexemeAt (rest.length + 1) c rest).length < rest.length + 1)
    (closed : (lexemeAt (rest.length + 1) c rest).kind = .literal →
      ClosedLiteral (lexemeAt (rest.length + 1) c rest).value)
    (plain : c = backtick → ∀ d ∈ (lexemeAt (rest.length + 1) c rest).value,
      isPlainNameChar d = true) :
    Lexed (fun d => ((c :: rest).drop (lexemeAt (rest.length + 1) c rest).length).head? = some d)
      ((c :: rest).take (lexemeAt (rest.length + 1) c rest).length)
      ((lexemeAt (rest.length + 1) c rest).kind,
        String.ofList (lexemeAt (rest.length + 1) c rest).value) := by
  cases quote : isQuote c with
  | true =>
      rw [lexemeAt_quote _ _ quote] at inside closed ⊢
      have length : min (tailLength c rest + 1) (rest.length + 1) = tailLength c rest + 1 := by
        dsimp only at inside
        omega
      simp only [length, List.take_succ_cons, List.drop_succ_cons] at inside closed ⊢
      exact lexed_of_tailLength quote (Nat.le_of_lt_succ inside.le) (closed trivial)
  | false =>
      by_cases mark : c = backtick
      · subst mark
        have same : lexemeAt (rest.length + 1) backtick rest =
            quotedName (rest.length + 1) rest := by
          simp [lexemeAt, isQuote, backtick]
        rw [same] at inside plain ⊢
        exact lexed_of_quotedName inside (plain rfl)
      · exact lexed_of_unquoted solid quote mark

/-- The first character of a text is all that may follow what comes before it. -/
def Starts (text : List Char) (c : Char) : Prop :=
  text.head? = some c

theorem first_starts (text rest : List Char) (c : Char) :
    First (Starts rest) text c ↔ Starts (text ++ rest) c := by
  cases text with
  | nil => exact Iff.rfl
  | cons d text =>
      rw [First, Starts, List.cons_append, List.head?_cons, Option.some.injEq]
      exact eq_comm

theorem Token.Plain.lexed (plain : token.Plain text)
    (read : nextToken text pos text.length = some token) (inside : token.stop < text.length) :
    Lexed (Starts (text.drop token.stop))
      ((text.drop token.start).take (token.stop - token.start)) token.spelling := by
  obtain ⟨c, rest, here, solid, kind, value, stop⟩ := nextToken_some_whole read
  have size := congrArg List.length here
  rw [List.length_drop, List.length_cons] at size
  have mark (same : c = backtick) : text[token.start]? = some backtick := by
    rw [← List.head?_drop, here, same]
    rfl
  have lexed := lexed_of_lexemeAt solid (by omega) ?_ ?_
  · rw [Token.spelling, kind, value, here, stop, Nat.add_sub_cancel_left, ← List.drop_drop, here]
    exact lexed
  · intro literal
    have closed := plain.closed (kind.trans literal)
    rwa [value, String.toList_ofList] at closed
  · intro same
    have chars := plain.plain (mark same)
    rwa [value, String.toList_ofList] at chars

theorem take_drop_split (text : List Char) {start middle stop : Nat} (first : start ≤ middle)
    (last : middle ≤ stop) :
    (text.drop start).take (stop - start) =
      (text.drop start).take (middle - start) ++ (text.drop middle).take (stop - middle) := by
  have size : stop - start = (middle - start) + (stop - middle) := by omega
  have there : start + (middle - start) = middle := by omega
  rw [size, List.take_add, List.drop_drop, there]

/-- One token more in front of a stretch of the text. -/
theorem Token.Plain.stretch (plain : token.Plain text)
    (read : nextToken text pos text.length = some token) (inside : token.stop < text.length)
    {stop : Nat} (bound : token.stop ≤ stop) {spellings : List Spelling}
    (rest : Stretch (Starts (text.drop stop)) ((text.drop token.stop).take (stop - token.stop))
      spellings) :
    Stretch (Starts (text.drop stop)) ((text.drop pos).take (stop - pos))
      (token.spelling :: spellings) := by
  have advances := nextToken_bounds read
  have start := nextToken_start read
  have trivia (follow : Char → Prop) :
      Stretch follow ((text.drop pos).take (token.start - pos)) [] := by
    have length : token.start - pos = triviaLength (text.drop pos) := by omega
    rw [length]
    apply stretch_triviaLength
    rw [List.length_drop]
    omega
  have there : (text.drop token.stop).take (stop - token.stop) ++ text.drop stop =
      text.drop token.stop := by
    have same := @List.take_append_drop _ (stop - token.stop) (text.drop token.stop)
    have sum : token.stop + (stop - token.stop) = stop := by omega
    rwa [List.drop_drop, sum] at same
  have lexed := plain.lexed read inside
  rw [take_drop_split text advances.1 (Nat.le_trans (Nat.le_of_lt advances.2.2) bound),
    take_drop_split text (Nat.le_of_lt advances.2.2) bound]
  refine Stretch.append (trivia _) (.token (lexed.mono fun c next => ?_) rest)
  rw [first_starts, there] at next
  exact next

/-- The tokens up to one that is not the last, with the trivia between them. -/
theorem stretch_of_tokens {before after : List Token} {first : Token}
    (read : tokens text pos text.length = before ++ first :: after) (followed : after ≠ [])
    (plain : ∀ token ∈ before ++ [first], token.Plain text) :
    pos ≤ first.stop ∧ first.stop < text.length ∧
      Stretch (Starts (text.drop first.stop)) ((text.drop pos).take (first.stop - pos))
        ((before ++ [first]).map Token.spelling) := by
  induction before generalizing pos with
  | nil =>
      obtain ⟨here, later⟩ := tokens_eq_cons read
      obtain ⟨second, after, rfl⟩ := List.exists_cons_of_ne_nil followed
      have advances := nextToken_bounds here
      have beyond := nextToken_bounds (tokens_eq_cons later).1
      refine ⟨by omega, by omega, ?_⟩
      refine (plain first (by simp)).stretch here (by omega) (Nat.le_refl _) ?_
      rw [Nat.sub_self, List.take_zero]
      exact .nil
  | cons token before ih =>
      obtain ⟨here, later⟩ := tokens_eq_cons read
      have advances := nextToken_bounds here
      obtain ⟨bound, inside, stretch⟩ :=
        ih later fun other member => plain other (List.mem_cons_of_mem token member)
      refine ⟨by omega, inside, ?_⟩
      exact (plain token List.mem_cons_self).stretch here (by omega) bound stretch

end Tokens

/-! ## Gaps -/

section Gaps

variable {text : List Char} {follow : Char → Prop}

theorem Lexed.followedBySlash {spelling : Spelling} (lexed : Lexed follow text spelling)
    (noSlash : text.getLast? ≠ some '/') : Lexed (fun c => follow c ∨ c = '/') text spelling := by
  cases lexed with
  | literal quoted closed apart =>
      refine .literal quoted closed fun empty next => ?_
      exact next.elim (apart empty) (by decide)
  | word named ends =>
      refine .word named fun c next => ?_
      rcases next with known | rfl
      · exact ends c known
      · decide
  | marker named ends =>
      refine .marker named fun c next => ?_
      rcases next with known | rfl
      · exact ends c known
      · decide
  | quoted plain => exact .quoted plain
  | arrow => exact .arrow
  | colons => exact .colons
  | @symbol c symbol apart =>
      refine .symbol symbol fun d next => ?_
      rcases next with known | rfl
      · exact apart d known
      · have other : (c == '/') = false := by simpa using noSlash
        simp [standsApart, other, show isWordChar '/' = false from rfl]

/-- A slash may follow whatever does not end with one. -/
theorem Stretch.followedBySlash {spellings : List Spelling}
    (stretch : Stretch follow text spellings) (noSlash : text.getLast? ≠ some '/') :
    Stretch (fun c => follow c ∨ c = '/') text spellings := by
  have later {first last : List Char} (whole : (first ++ last).getLast? ≠ some '/') :
      last.getLast? ≠ some '/' := by
    intro slash
    rw [List.getLast?_append, slash] at whole
    exact whole rfl
  induction stretch with
  | nil => exact .nil
  | @blank c text _ blank _ ih => exact .blank blank (ih (@later [c] text noSlash))
  | comment isComment _ ih => exact .comment isComment (ih (later noSlash))
  | @token token text _ _ lexed _ ih =>
      refine .token ?_ (ih (later noSlash))
      cases text with
      | nil =>
          rw [List.append_nil] at noSlash
          exact lexed.followedBySlash noSlash
      | cons d text => exact lexed

/-- A text of blanks and of whole comments. -/
def IsTrivia (text : List Char) : Prop :=
  Stretch (fun _ => True) text []

/-- The offset stands after `first` and before the token that follows it, not inside of a comment,
and not after a slash, which would make the start of a comment another one. -/
structure Gap (text : List Char) (offset : Nat) (before : List Token) (first : Token) : Prop where
  tokens : ∃ second after, Source.tokens text 0 text.length = before ++ first :: second :: after ∧
    offset ≤ second.start
  start : first.stop ≤ offset
  trivia : IsTrivia ((text.drop first.stop).take (offset - first.stop))
  noSlash : (text.take offset).getLast? ≠ some '/'

theorem tokens_after {pos stop : Nat} {before after : List Token} {first : Token}
    (read : tokens text pos stop = before ++ first :: after) :
    tokens text first.stop stop = after := by
  induction before generalizing pos with
  | nil => exact (tokens_eq_cons read).2
  | cons token before ih => exact ih (tokens_eq_cons read).2

/-- Where a token stops there is a gap. -/
theorem Gap.at_stop {before after : List Token} {first second : Token}
    (read : Source.tokens text 0 text.length = before ++ first :: second :: after)
    (noSlash : (text.take first.stop).getLast? ≠ some '/') : Gap text first.stop before first where
  tokens := ⟨second, after, read,
    (nextToken_bounds (tokens_eq_cons (tokens_after read)).1).1⟩
  start := Nat.le_refl _
  trivia := by
    rw [Nat.sub_self]
    exact .nil
  noSlash := noSlash

variable {offset : Nat} {before : List Token} {first : Token}

theorem Gap.drop_split (gap : Gap text offset before first) :
    text.drop first.stop =
      (text.drop first.stop).take (offset - first.stop) ++ text.drop offset := by
  have there : first.stop + (offset - first.stop) = offset := by
    have := gap.start
    omega
  have split := @List.take_append_drop _ (offset - first.stop) (text.drop first.stop)
  rw [List.drop_drop, there] at split
  exact split.symm

theorem Gap.inside (gap : Gap text offset before first) : offset < text.length := by
  obtain ⟨second, after, read, early⟩ := gap.tokens
  have bounds := nextToken_bounds (tokens_eq_cons (tokens_after read)).1
  omega

/-- From the offset on the tokens go on after `first`. -/
theorem Gap.tokens_eq (gap : Gap text offset before first) :
    Source.tokens text 0 text.length =
      before ++ first :: Source.tokens text offset text.length := by
  obtain ⟨second, after, read, -⟩ := gap.tokens
  have skipped := tokens_skip (gap.trivia.skip gap.drop_split text.length)
  have there : first.stop + ((text.drop first.stop).take (offset - first.stop)).length =
      offset := by
    rw [List.length_take, List.length_drop]
    have := gap.start
    have := gap.inside
    omega
  rw [there, tokens_after read] at skipped
  rw [← skipped, read]

/-- The text before a gap is whole, be it that the rest of the text follows it or a comment. -/
theorem Gap.stretch (gap : Gap text offset before first)
    (plain : ∀ token ∈ before ++ [first], token.Plain text) :
    Stretch (fun c => Starts (text.drop offset) c ∨ c = '/') (text.take offset)
      ((before ++ [first]).map Token.spelling) := by
  obtain ⟨second, after, read, -⟩ := gap.tokens
  obtain ⟨-, -, stretch⟩ := stretch_of_tokens read (List.cons_ne_nil _ _) plain
  have trivia : Stretch (Starts (text.drop offset)) _ [] := gap.trivia.mono fun _ _ => True.intro
  have whole := Stretch.append (stretch.mono fun c next => ?_) trivia
  · have split := take_drop_split text (Nat.zero_le first.stop) gap.start
    rw [Nat.sub_zero, Nat.sub_zero, List.drop_zero] at split
    rw [List.append_nil, List.drop_zero, Nat.sub_zero, ← split] at whole
    exact whole.followedBySlash gap.noSlash
  · rw [first_starts, ← gap.drop_split] at next
    exact next

end Gaps

end DartBindings.Source
