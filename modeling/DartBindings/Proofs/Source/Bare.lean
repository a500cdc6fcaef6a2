import DartBindings.Proofs.Source.Locality
import DartBindings.Proofs.Source.Stretch

/-!
Stretches without their comments. Taking the comments out of a text leaves its tokens whole, and
blanks where the comments were.
-/

set_option autoImplicit false

namespace DartBindings.Source

open Text

/-- A text of whole tokens, spelled like this, with blanks between them. -/
inductive Bare (follow : Char → Prop) : List Char → List Spelling → Prop where
  | nil : Bare follow [] []
  | blank {c : Char} {text : List Char} {spellings : List Spelling} : isBlank c = true →
      Bare follow text spellings → Bare follow (c :: text) spellings
  | token {token text : List Char} {spelling : Spelling} {spellings : List Spelling} :
      Lexed (First follow text) token spelling → Bare follow text spellings →
      Bare follow (token ++ text) (spelling :: spellings)

/-- One of these characters, or a blank. -/
def OrBlank (follow : Char → Prop) (c : Char) : Prop :=
  follow c ∨ isBlank c = true

/-- What is read before a blank at the end of the text ends with the mark. -/
theorem isSuffix_of_contentLength {mark text : List Char}
    (read : contentLength mark (text ++ [' ']) = some text.length) : mark <:+ text := by
  rcases contentLength_eq_or read with whole | ends
  · rw [List.length_append, List.length_singleton] at whole
    omega
  · rwa [List.take_left] at ends

/-- A closed literal ends with its mark. -/
theorem ClosedLiteral.ends {quote : Char} {tail : List Char}
    (closed : ClosedLiteral (quote :: tail)) : [quote] <:+ tail := by
  have length : tailLength quote (tail ++ [' ']) + 1 = (quote :: tail).length :=
    closed [' '] (by simp)
  replace length : tailLength quote (tail ++ [' ']) = tail.length := Nat.succ.inj length
  unfold tailLength at length
  split at length
  · rename_i triple
    obtain ⟨rfl, -⟩ := List.cons_prefix_cons.mp (List.isPrefixOf_iff_prefix.mp triple)
    rw [List.drop_append_of_le_length (by omega)] at length
    cases read : contentLength tripleQuote (tail.drop 2 ++ [' ']) with
    | none => cases eq_apostrophe_of_contentLength read
    | some k =>
        rw [read, Option.getD_some] at length
        have size : k = (tail.drop 2).length := by
          rw [List.length_drop]
          omega
        rw [size] at read
        have ends := isSuffix_of_contentLength read
        have single : ['"'] <:+ tripleQuote := ⟨['"', '"'], rfl⟩
        exact single.trans (ends.trans (List.drop_suffix 2 tail))
  · cases read : contentLength [quote] (tail ++ [' ']) with
    | none =>
        obtain rfl := (List.cons.inj (eq_apostrophe_of_contentLength read)).1
        rw [read, Option.getD_none] at length
        obtain rfl := List.length_eq_zero_iff.mp length.symm
        rw [List.nil_append, contentLength_last (by decide) (by decide)] at read
        cases read
    | some k =>
        rw [read, Option.getD_some] at length
        rw [length] at read
        exact isSuffix_of_contentLength read

section Bare

variable {follow : Char → Prop} {text rest : List Char} {spelling : Spelling}
  {spellings : List Spelling}

theorem Bare.stretch (bare : Bare follow text spellings) : Stretch follow text spellings := by
  induction bare with
  | nil => exact .nil
  | blank blank _ ih => exact .blank blank ih
  | token lexed _ ih => exact .token lexed ih

theorem Bare.blanks {blanks : List Char} (blank : ∀ c ∈ blanks, isBlank c = true)
    (bare : Bare follow text spellings) : Bare follow (blanks ++ text) spellings := by
  induction blanks with
  | nil => exact bare
  | cons c blanks ih =>
      exact .blank (blank c List.mem_cons_self)
        (ih fun d member => blank d (List.mem_cons_of_mem c member))

theorem Bare.mono {allowed : Char → Prop} (bare : Bare follow text spellings)
    (fewer : ∀ c, allowed c → follow c) : Bare allowed text spellings := by
  induction bare with
  | nil => exact .nil
  | blank blank _ ih => exact .blank blank ih
  | @token token text _ _ lexed _ ih =>
      refine .token (lexed.mono ?_) ih
      intro c next
      cases text with
      | nil => exact fewer c next
      | cons d text => exact next

/-- Blanks may follow any token. -/
theorem Lexed.orBlank (lexed : Lexed follow text spelling) :
    Lexed (OrBlank follow) text spelling := by
  cases lexed with
  | literal quote closed apart =>
      refine .literal quote closed fun empty next => ?_
      rcases next with next | blank
      · exact apart empty next
      · cases blank
  | word named ends => exact .word named fun c next => next.elim (ends c) isWordChar_of_isBlank
  | marker named ends =>
      exact .marker named fun c next => next.elim (ends c) isWordChar_of_isBlank
  | quoted plain => exact .quoted plain
  | arrow => exact .arrow
  | colons => exact .colons
  | symbol symbol apart =>
      refine .symbol symbol fun d next => next.elim (apart d) fun blank => ?_
      have other (e : Char) (noBlank : isBlank e = false) : (d == e) = false :=
        beq_eq_false_iff_ne.mpr (ne_of_class blank noBlank)
      simp [standsApart, isWordChar_of_isBlank blank, other '>' (by decide), other ':' (by decide),
        other '/' (by decide), other '*' (by decide)]

theorem Fits.nil (follow : Char → Prop) : Fits follow [] :=
  fun _ none => by cases none

/-- A token starts with no blank. -/
theorem Lexed.isBlank_first (lexed : Lexed follow text spelling) :
    ∃ c tail, text = c :: tail ∧ isBlank c = false := by
  obtain ⟨c, tail, rfl⟩ := List.exists_cons_of_ne_nil lexed.nonempty
  have solid := lexed.solid (Fits.nil follow)
  rw [List.append_nil] at solid
  exact ⟨c, tail, rfl, (triviaLength_eq_zero_iff.mp solid).1⟩

theorem Bare.dropWhile (bare : Bare follow text spellings) :
    Bare follow (text.dropWhile isBlank) spellings := by
  induction bare with
  | nil => exact .nil
  | blank blank _ ih => rwa [List.dropWhile_cons_of_pos blank]
  | @token token text _ _ lexed later _ =>
      obtain ⟨c, tail, rfl, solid⟩ := lexed.isBlank_first
      rw [List.cons_append, List.dropWhile_cons_of_neg (by simp [solid])]
      exact .token lexed later

/-- No word goes on after a token. -/
theorem Lexed.words (lexed : Lexed follow text spelling) {c d : Char} (last : c ∈ text.getLast?)
    (word : isWordChar c = true) (next : follow d) : isWordChar d = false := by
  have other {e : Char} {front : List Char} (noWord : isWordChar e = false)
      (split : text = front ++ [e]) : isWordChar d = false := by
    rw [split, Option.mem_def, List.getLast?_concat, Option.some.injEq] at last
    rw [← last, noWord] at word
    cases word
  cases lexed with
  | @literal quote tail quoted closed apart =>
      obtain ⟨front, rfl⟩ := closed.ends
      have noWord : isWordChar quote = false := by
        cases word : isWordChar quote with
        | false => rfl
        | true =>
            rw [isQuote_of_isWordChar word] at quoted
            cases quoted
      exact other noWord (List.cons_append ..).symm
  | word named ends => exact ends d next
  | marker named ends => exact ends d next
  | quoted => exact other (by decide) (List.cons_append ..).symm
  | arrow => exact @other '>' ['-'] (by decide) rfl
  | colons => exact @other ':' [':'] (by decide) rfl
  | @symbol c symbol apart =>
      simp only [isSymbolChar, Bool.not_eq_true', Bool.or_eq_false_iff] at symbol
      exact @other c [] symbol.1.2 rfl

theorem Bare.words (bare : Bare follow text spellings) {c d : Char} (last : c ∈ text.getLast?)
    (word : isWordChar c = true) (next : follow d) : isWordChar d = false := by
  induction bare with
  | nil => cases last
  | @blank e text _ blank later ih =>
      cases text with
      | nil =>
          rw [List.getLast?_singleton, Option.mem_some_iff] at last
          rw [last, isBlank_of_isWordChar word] at blank
          cases blank
      | cons f text =>
          rw [List.getLast?_cons_cons] at last
          exact ih last
  | @token token text _ _ lexed later ih =>
      cases text with
      | nil =>
          rw [List.append_nil] at last
          exact lexed.words last word next
      | cons f text =>
          obtain ⟨e, ends⟩ := Option.isSome_iff_exists.mp
            (List.getLast?_isSome.mpr (List.cons_ne_nil f text))
          rw [List.getLast?_append, ends, Option.some_or] at last
          exact ih (ends ▸ last)

end Bare

/-! ## Taking comments out -/

section StripComments

variable {follow : Char → Prop} {text rest : List Char} {spelling : Spelling}
  {spellings : List Spelling} {c : Char}

@[simp] theorem stripComments_nil : stripComments [] = [] := by
  rw [stripComments.eq_def]

theorem stripComments_literal (quote : isQuote c = true) :
    stripComments (c :: rest) =
      c :: (rest.take (tailLength c rest) ++ stripComments (rest.drop (tailLength c rest))) := by
  rw [stripComments.eq_def]
  simp only [quote, ↓reduceIte]

theorem stripComments_comment (quote : isQuote c = false) {n : Nat}
    (length : commentLength (c :: rest) = n + 1) :
    stripComments (c :: rest) =
      ' ' :: stripComments (rest.drop (n + triviaLength (rest.drop n))) := by
  rw [stripComments.eq_def]
  simp only [quote, length, Bool.false_eq_true, ↓reduceIte]

theorem stripComments_char (quote : isQuote c = false) (length : commentLength (c :: rest) = 0) :
    stripComments (c :: rest) = c :: stripComments rest := by
  rw [stripComments.eq_def]
  simp only [quote, length, Bool.false_eq_true, ↓reduceIte]

theorem stripComments_run {run : List Char} (quiet : ∀ c ∈ run, isQuote c = false ∧ c ≠ '/')
    (rest : List Char) : stripComments (run ++ rest) = run ++ stripComments rest := by
  induction run with
  | nil => rfl
  | cons c run ih =>
      obtain ⟨quote, slash⟩ := quiet c List.mem_cons_self
      rw [List.cons_append, stripComments_char quote (commentLength_of_ne slash _),
        ih fun d member => quiet d (List.mem_cons_of_mem c member), List.cons_append]

theorem stripComments_class {p : Char → Bool} {run : List Char} (chars : ∀ c ∈ run, p c = true)
    (quotes : p '"' = false ∧ p '\'' = false) (slash : p '/' = false) (rest : List Char) :
    stripComments (run ++ rest) = run ++ stripComments rest :=
  stripComments_run (fun c member => ⟨isQuote_of_class (chars c member) quotes.1 quotes.2,
    ne_of_class (chars c member) slash⟩) rest

theorem Lexed.stripComments (lexed : Lexed follow text spelling) (fits : Fits follow rest) :
    stripComments (text ++ rest) = text ++ stripComments rest := by
  cases lexed with
  | @literal quote tail quoted closed apart =>
      rw [List.cons_append, stripComments_literal quoted, closed.tailLength_eq apart fits,
        List.take_left, List.drop_left, List.cons_append]
  | word named => exact stripComments_class named.chars (by decide) (by decide) rest
  | @marker word named =>
      have marked : ∀ c ∈ '@' :: word, isQuote c = false ∧ c ≠ '/' := by
        intro c member
        rcases List.mem_cons.mp member with rfl | inside
        · decide
        · exact ⟨isQuote_of_isWordChar (named.chars c inside),
            ne_of_class (named.chars c inside) (by decide)⟩
      exact stripComments_run marked rest
  | @quoted name plain =>
      refine stripComments_run (fun c member => ?_) rest
      simp only [List.mem_cons, List.mem_append, List.not_mem_nil, or_false] at member
      rcases member with rfl | inside | rfl
      · decide
      · have chars := plain c inside
        exact ⟨isQuote_of_class chars (by decide) (by decide), ne_of_class chars (by decide)⟩
      · decide
  | arrow => exact stripComments_run (by simp [isQuote]) rest
  | colons => exact stripComments_run (by simp [isQuote]) rest
  | @symbol c symbol apart =>
      simp only [isSymbolChar, Bool.not_eq_true', Bool.or_eq_false_iff] at symbol
      exact stripComments_char symbol.1.1.2 (commentLength_apart fits apart)

theorem IsComment.stripComments (comment : IsComment text) (rest : List Char) :
    stripComments (text ++ rest) = ' ' :: stripComments (rest.drop (triviaLength rest)) := by
  obtain ⟨c, tail, rfl⟩ := comment.exists_cons
  have length : commentLength (c :: (tail ++ rest)) = tail.length + 1 := comment rest
  rw [List.cons_append, stripComments_comment (isQuote_of_commentLength length) length,
    List.drop_left, List.drop_length_add_append]

/-- Trivia becomes blanks. A comment in it takes the trivia after it along. -/
theorem Stretch.stripComments_trivia (stretch : Stretch follow text []) :
    ((∀ c ∈ text, isBlank c = true) ∧
        ∀ rest, stripComments (text ++ rest) = text ++ stripComments rest) ∨
      ∃ blanks, blanks ≠ [] ∧ (∀ c ∈ blanks, isBlank c = true) ∧
        ∀ rest, stripComments (text ++ rest) =
          blanks ++ stripComments (rest.drop (triviaLength rest)) := by
  generalize ended : ([] : List Spelling) = spellings at stretch
  induction stretch with
  | nil => exact .inl ⟨by simp, fun _ => rfl⟩
  | @blank c text _ blank _ ih =>
      have char (rest : List Char) : DartBindings.Source.stripComments (c :: rest) = _ :=
        stripComments_char (isQuote_of_isBlank blank) (commentLength_of_isBlank blank rest)
      rcases ih ended with ⟨blanks, same⟩ | ⟨blanks, some, each, same⟩
      · refine .inl ⟨by simpa [blank] using blanks, fun rest => ?_⟩
        rw [List.cons_append, char, same, List.cons_append]
      · refine .inr ⟨c :: blanks, List.cons_ne_nil c blanks, by simpa [blank] using each,
          fun rest => ?_⟩
        rw [List.cons_append, char, same, List.cons_append]
  | @comment comment text _ isComment later ih =>
      refine .inr ⟨[' '], List.cons_ne_nil ' ' [], List.forall_mem_singleton.mpr rfl,
        fun rest => ?_⟩
      subst ended
      rw [List.append_assoc, isComment.stripComments, later.trivia, Nat.add_comm,
        List.drop_length_add_append]
      rfl
  | token => cases ended

/-- What is left of a stretch without its comments. -/
structure Bared (follow : Char → Prop) (text bare : List Char) (spellings : List Spelling) :
    Prop where
  whole : Bare (OrBlank follow) bare spellings
  first : ∀ c, First (OrBlank follow) bare c → OrBlank (First follow text) c
  /-- A comment at the end takes the trivia after the stretch along. -/
  last : (bare.getLast? = text.getLast? ∧ ∀ rest, Fits follow rest →
      stripComments (text ++ rest) = bare ++ stripComments rest) ∨
    ∀ rest, Fits follow rest →
      stripComments (text ++ rest) = bare ++ stripComments (rest.drop (triviaLength rest))

theorem bare_of_blank (blank : ∀ c ∈ text, isBlank c = true) : Bare follow text [] := by
  have bare : Bare follow (text ++ []) [] := Bare.nil.blanks blank
  rwa [List.append_nil] at bare

theorem Bared.of_trivia (stretch : Stretch follow text []) : ∃ bare, Bared follow text bare [] := by
  rcases stretch.stripComments_trivia with ⟨blank, same⟩ | ⟨blanks, some, blank, same⟩
  · refine ⟨text, bare_of_blank blank, fun c next => ?_, .inl ⟨rfl, fun rest _ => same rest⟩⟩
    cases text with
    | nil => exact next
    | cons d text => exact .inl next
  · refine ⟨blanks, bare_of_blank blank, fun c next => .inr ?_, .inr fun rest _ => same rest⟩
    obtain ⟨d, blanks, rfl⟩ := List.exists_cons_of_ne_nil some
    exact (next : c = d) ▸ blank d List.mem_cons_self

theorem Bared.cons {trivia token after bare : List Char}
    (before : Stretch (First follow (token ++ after)) trivia [])
    (lexed : Lexed (First follow after) token spelling)
    (bared : Bared follow after bare spellings) :
    ∃ all, Bared follow (trivia ++ (token ++ after)) all (spelling :: spellings) := by
  have bareToken : Bare (OrBlank follow) (token ++ bare) (spelling :: spellings) :=
    .token (lexed.orBlank.mono bared.first) bared.whole
  have solid (rest : List Char) (fits : Fits follow rest) :
      triviaLength (token ++ (after ++ rest)) = 0 := lexed.solid (fits.first after)
  -- Before a token, no trivia is left for a comment to take along.
  obtain ⟨blanks, blank, starts, same⟩ : ∃ blanks, (∀ c ∈ blanks, isBlank c = true) ∧
      (blanks = [] → trivia = []) ∧ ∀ rest, Fits follow rest →
        stripComments (trivia ++ (token ++ after) ++ rest) =
          blanks ++ (token ++ stripComments (after ++ rest)) := by
    rcases before.stripComments_trivia with ⟨blank, same⟩ | ⟨blanks, some, blank, same⟩
    · refine ⟨trivia, blank, id, fun rest fits => ?_⟩
      rw [List.append_assoc, same, List.append_assoc, lexed.stripComments (fits.first after)]
    · refine ⟨blanks, blank, fun none => absurd none some, fun rest fits => ?_⟩
      rw [List.append_assoc, same, List.append_assoc, solid rest fits, List.drop_zero,
        lexed.stripComments (fits.first after)]
  refine ⟨blanks ++ (token ++ bare), bareToken.blanks blank, fun c next => ?_, ?_⟩
  · cases blanks with
    | nil =>
        rw [starts rfl]
        obtain ⟨d, token, rfl⟩ := List.exists_cons_of_ne_nil lexed.nonempty
        exact .inl next
    | cons d blanks => exact .inr ((next : c = d) ▸ blank d List.mem_cons_self)
  · rcases bared.last with ⟨ends, later⟩ | later
    · refine .inl ⟨?_, fun rest fits => ?_⟩
      · obtain ⟨d, some⟩ := Option.isSome_iff_exists.mp (List.getLast?_isSome.mpr lexed.nonempty)
        simp only [List.getLast?_append, ends, some]
        cases after.getLast? <;> rfl
      · rw [same rest fits, later rest fits, List.append_assoc, List.append_assoc]
    · refine .inr fun rest fits => ?_
      rw [same rest fits, later rest fits, List.append_assoc, List.append_assoc]

theorem Stretch.bared (stretch : Stretch follow text spellings) :
    ∃ bare, Bared follow text bare spellings := by
  induction spellings generalizing text with
  | nil => exact Bared.of_trivia stretch
  | cons spelling spellings ih =>
      obtain ⟨trivia, token, after, rfl, before, lexed, later⟩ := stretch.split
      obtain ⟨bare, bared⟩ := ih later
      exact Bared.cons before lexed bared

/-- Trivia at the start becomes blanks. -/
theorem stripComments_start (text : List Char) :
    ∃ blanks, (∀ c ∈ blanks, isBlank c = true) ∧ (blanks = [] → triviaLength text = 0) ∧
      stripComments text = blanks ++ stripComments (text.drop (triviaLength text)) := by
  induction text using triviaLength.induct with
  | case1 => exact ⟨[], by simp, fun _ => triviaLength_nil, by simp⟩
  | case2 c rest blank ih =>
      obtain ⟨blanks, each, -, same⟩ := ih
      refine ⟨c :: blanks, by simpa [blank] using each,
        fun none => absurd none (List.cons_ne_nil _ _), ?_⟩
      rw [stripComments_char (isQuote_of_isBlank blank) (commentLength_of_isBlank blank rest),
        same, triviaLength_blank blank, List.drop_succ_cons, List.cons_append]
  | case3 c rest solid comment =>
      have none : triviaLength (c :: rest) = 0 :=
        triviaLength_eq_zero_iff.mpr ⟨by simpa using solid, comment⟩
      exact ⟨[], by simp, fun _ => none, by rw [none]; rfl⟩
  | case4 c rest _ n comment _ =>
      have length : triviaLength (c :: rest) = n + triviaLength (rest.drop n) + 1 := by
        rw [triviaLength_comment comment]
        omega
      refine ⟨[' '], List.forall_mem_singleton.mpr rfl,
        fun none => absurd none (List.cons_ne_nil _ _), ?_⟩
      rw [stripComments_comment (isQuote_of_commentLength comment) comment, length,
        List.drop_succ_cons]
      rfl

/-- A text that starts with a token keeps its first character. -/
theorem head?_stripComments (solid : triviaLength text = 0) :
    (stripComments text).head? = text.head? := by
  cases text with
  | nil => rw [stripComments_nil]
  | cons c rest =>
      cases quote : isQuote c with
      | true => rw [stripComments_literal quote]; rfl
      | false =>
          rw [stripComments_char quote (triviaLength_eq_zero_iff.mp solid).2]
          rfl

theorem takeWhile_stripComments (text : List Char) :
    (stripComments text).takeWhile isWordChar = text.takeWhile isWordChar := by
  induction text with
  | nil => rw [stripComments_nil]
  | cons c rest ih =>
      cases word : isWordChar c with
      | true =>
          have slash : c ≠ '/' := ne_of_class word (by decide)
          rw [stripComments_char (isQuote_of_isWordChar word) (commentLength_of_ne slash rest),
            List.takeWhile_cons_of_pos word, List.takeWhile_cons_of_pos word, ih]
      | false =>
          have none (d : Char) (other : isWordChar d = false) (rest : List Char) :
              (d :: rest).takeWhile isWordChar = [] := by
            rw [List.takeWhile_cons_of_neg (by simp [other])]
          rw [none c word]
          cases quote : isQuote c with
          | true => rw [stripComments_literal quote, none c word]
          | false =>
              cases comment : commentLength (c :: rest) with
              | zero => rw [stripComments_char quote comment, none c word]
              | succ n => rw [stripComments_comment quote comment, none ' ' (by decide)]

end StripComments

end DartBindings.Source
