import DartBindings.Proofs.Source.ClosingToken
import DartBindings.Proofs.Source.Gap

/-!
The front of a text, whichever of several tails comes after it. Its tokens are read alike before
all of them, and every search that ends in the front ends at the same place. A literal need not be
closed in the usual way for this: it has to end where it does before each of the tails.
-/

set_option autoImplicit false

namespace DartBindings.Source

open Text

/-! ## Single tokens -/

/-- The text is one token, whichever of the tails follows it. -/
inductive TokenBefore (tails : List Char → Prop) : List Char → Spelling → Prop where
  | lexed {follow : Char → Prop} {text : List Char} {spelling : Spelling} :
      Lexed follow text spelling → (∀ tail, tails tail → Fits follow tail) →
      TokenBefore tails text spelling
  | literal {quote : Char} {contents : List Char} : isQuote quote = true →
      (∀ tail, tails tail → tailLength quote (contents ++ tail) = contents.length) →
      TokenBefore tails (quote :: contents) (.literal, String.ofList (quote :: contents))

section Token

variable {tails : List Char → Prop} {text tail source : List Char} {spelling : Spelling}
  {pos stop : Nat}

theorem TokenBefore.nonempty (token : TokenBefore tails text spelling) : text ≠ [] := by
  cases token with
  | lexed lexed => exact lexed.nonempty
  | literal => exact List.cons_ne_nil _ _

theorem TokenBefore.nextToken (token : TokenBefore tails text spelling) (follows : tails tail)
    (here : source.drop pos = text ++ tail) (inside : pos + text.length ≤ stop) :
    nextToken source pos stop = some ⟨spelling.1, spelling.2, pos, pos + text.length⟩ := by
  cases token with
  | lexed lexed fits =>
      obtain ⟨c, rest, rfl, lexeme⟩ :=
        lexed.lexemeAt (fits tail follows) (Nat.le_sub_of_add_le' inside)
      have solid := lexed.solid (fits tail follows)
      have room : pos < stop := by
        rw [List.length_cons] at inside
        omega
      rw [List.cons_append] at here solid
      rw [nextToken_solid here solid room, lexeme, String.ofList_toList]
  | @literal quote contents quoted ends =>
      rw [List.cons_append] at here
      rw [List.length_cons] at inside
      rw [nextToken_solid here (triviaLength_quote quoted _) (by omega), lexemeAt_quote _ _ quoted,
        ends tail follows, Nat.min_eq_left (by omega), List.take_succ_cons, List.take_left,
        List.length_cons]

theorem TokenBefore.search (token : TokenBefore tails text spelling) {opening closing : Char}
    (delimits : Delimits opening closing) (depth : Nat) :
    (∃ level, ∀ tail, tails tail →
      closingIndex (some opening) (some closing) depth (text ++ tail) =
        (closingIndex (some opening) (some closing) level tail).map (· + text.length)) ∨
    ∃ front, text = front ++ [closing] ∧ ∀ tail, tails tail →
      closingIndex (some opening) (some closing) depth (text ++ tail) = some front.length := by
  cases token with
  | lexed lexed fits =>
      rcases lexed.search delimits depth with ⟨level, passes⟩ | ⟨front, split, -, found⟩
      · exact .inl ⟨level, fun tail follows => passes tail (fits tail follows)⟩
      · exact .inr ⟨front, split, fun tail follows => found tail (fits tail follows)⟩
  | @literal quote contents quoted ends =>
      refine .inl ⟨depth, fun tail follows => ?_⟩
      rw [List.cons_append, closingIndex_literal quoted, ends tail follows, List.drop_left,
        List.length_cons]

theorem IsTrivia.search (trivia : IsTrivia text) {opening closing : Char}
    (delimits : Delimits opening closing) (depth : Nat) (rest : List Char) :
    closingIndex (some opening) (some closing) depth (text ++ rest) =
      (closingIndex (some opening) (some closing) depth rest).map (· + text.length) := by
  unfold IsTrivia at trivia
  generalize ended : ([] : List Spelling) = spellings at trivia
  induction trivia with
  | nil => simp
  | @blank c text _ blank _ ih =>
      have first := @Delimits.passes_blank (fun _ => True) _ _ depth delimits c blank (text ++ rest)
        fun _ _ => trivial
      rw [List.singleton_append, List.length_singleton] at first
      rw [List.cons_append, first, ih ended, map_add_map_add, List.length_cons]
  | comment comment _ ih =>
      rw [List.append_assoc, comment.search delimits, ih ended, map_add_map_add,
        List.length_append, Nat.add_comm]
  | token => cases ended

end Token

/-! ## Fronts -/

/-- The tails with a text before each. -/
def Behind (after : List Char) (tails : List Char → Prop) (tail : List Char) : Prop :=
  ∃ last, tails last ∧ tail = after ++ last

/-- Whole tokens with trivia between them, whichever of the tails follows. -/
inductive Front (tails : List Char → Prop) : List Char → Prop where
  | trivia {text : List Char} : IsTrivia text → Front tails text
  | token {trivia token after : List Char} {spelling : Spelling} : IsTrivia trivia →
      TokenBefore (Behind after tails) token spelling → Front tails after →
      Front tails (trivia ++ (token ++ after))

section Front

variable {tails : List Char → Prop} {text : List Char} {opening closing : Char}

/-- A search either leaves the front with the same number of open levels whichever tail follows, or
ends in it, before a front. -/
theorem Front.search (front : Front tails text) (delimits : Delimits opening closing)
    (depth : Nat) :
    (∃ level, ∀ tail, tails tail →
      closingIndex (some opening) (some closing) depth (text ++ tail) =
        (closingIndex (some opening) (some closing) level tail).map (· + text.length)) ∨
    ∃ before after, text = before ++ closing :: after ∧ Front tails after ∧
      ∀ tail, tails tail →
        closingIndex (some opening) (some closing) depth (text ++ tail) = some before.length := by
  induction front generalizing depth with
  | trivia trivia => exact .inl ⟨depth, fun tail _ => trivia.search delimits depth tail⟩
  | @token trivia token after _ blank read front ih =>
      have behind {tail : List Char} (follows : tails tail) :
          Behind after tails (after ++ tail) := ⟨tail, follows, rfl⟩
      rcases read.search delimits depth with ⟨level, passes⟩ | ⟨last, rfl, found⟩
      · rcases ih level with ⟨next, later⟩ | ⟨before, rest, rfl, inside, found⟩
        · refine .inl ⟨next, fun tail follows => ?_⟩
          rw [List.append_assoc, List.append_assoc, blank.search delimits,
            passes _ (behind follows), later tail follows, map_add_map_add, map_add_map_add]
          congr 1
          funext n
          simp only [List.length_append]
          omega
        · refine .inr ⟨trivia ++ (token ++ before), rest, by simp, inside, fun tail follows => ?_⟩
          rw [List.append_assoc, List.append_assoc, blank.search delimits,
            passes _ (behind follows), found tail follows]
          simp only [Option.map_some, List.length_append]
          congr 1
          omega
      · refine .inr ⟨trivia ++ last, after, by simp, front, fun tail follows => ?_⟩
        rw [List.append_assoc, List.append_assoc, blank.search delimits,
          found _ (behind follows)]
        simp only [Option.map_some, List.length_append]
        congr 1
        omega

/-- In a front there is no token, or a first one, after which a front is left. -/
theorem Front.read (front : Front tails text) :
    IsTrivia text ∨ ∃ trivia token after spelling, text = trivia ++ (token ++ after) ∧
      IsTrivia trivia ∧ TokenBefore (Behind after tails) token spelling ∧ Front tails after := by
  cases front with
  | trivia trivia => exact .inl trivia
  | token trivia read front => exact .inr ⟨_, _, _, _, rfl, trivia, read, front⟩

end Front

/-! ## Places in a front -/

/-- From this offset on the text is a front. -/
structure Stands (tails : List Char → Prop) (text : List Char) (pos : Nat) : Prop where
  inside : pos ≤ text.length
  front : Front tails (text.drop pos)

section Stands

variable {tails : List Char → Prop} {text : List Char} {pos : Nat} {opening closing : Char}

theorem Stands.atEnd (tails : List Char → Prop) (text : List Char) :
    Stands tails text text.length := by
  refine ⟨Nat.le_refl _, ?_⟩
  rw [List.drop_length]
  exact .trivia .nil

theorem Stands.drop_append (stands : Stands tails text pos) (tail : List Char) :
    (text ++ tail).drop pos = text.drop pos ++ tail :=
  List.drop_append_of_le_length stands.inside

/-- The tokens of the front are the same before all tails, in every window that reaches to its
end. -/
theorem Stands.nextToken (stands : Stands tails text pos) :
    (IsTrivia (text.drop pos) ∧
      ∀ tail, nextToken (text ++ tail) pos text.length = none) ∨
    ∃ token, Stands tails text token.stop ∧
      ∀ tail stop, tails tail → text.length ≤ stop →
        nextToken (text ++ tail) pos stop = some token := by
  rcases stands.front.read with blank | ⟨trivia, token, after, spelling, split, blank, read, front⟩
  · refine .inl ⟨blank, fun tail => ?_⟩
    rw [blank.skip (stands.drop_append tail), List.length_drop]
    have there : pos + (text.length - pos) = text.length := by
      have := stands.inside
      omega
    rw [there]
    unfold Source.nextToken skipTrivia
    simp
  · have size := congrArg List.length split
    simp only [List.length_drop, List.length_append] at size
    have some := List.length_pos_iff.mpr read.nonempty
    refine .inr ⟨⟨spelling.1, spelling.2, pos + trivia.length,
      pos + trivia.length + token.length⟩, ⟨by dsimp only; omega, ?_⟩, ?_⟩
    · dsimp only
      rw [← List.drop_drop, ← List.drop_drop, split, List.drop_left, List.drop_left]
      exact front
    · intro tail stop follows window
      have here := stands.drop_append tail
      rw [split, List.append_assoc, List.append_assoc] at here
      rw [blank.skip here]
      refine read.nextToken ⟨tail, follows, rfl⟩ ?_ (by omega)
      rw [← List.drop_drop, here, List.drop_left]

/-- In a window that ends with the front, the same token is read before all tails, or none. -/
theorem Stands.read (stands : Stands tails text pos) :
    ∃ found, (∀ token ∈ found, Stands tails text token.stop) ∧ ∀ tail, tails tail →
      Source.nextToken (text ++ tail) pos text.length = found := by
  rcases stands.nextToken with ⟨-, ended⟩ | ⟨token, after, read⟩
  · exact ⟨none, nofun, fun tail _ => ended tail⟩
  · refine ⟨some token, fun other same => ?_, fun tail follows =>
      read tail _ follows (Nat.le_refl _)⟩
    cases same
    exact after

/-- A group that closes in the front closes there before all tails. -/
theorem Stands.findClosing (stands : Stands tails text pos)
    (delimits : Delimits opening closing) :
    (∀ tail n, tails tail → findClosing (text ++ tail) pos opening closing = .ok n →
      text.length ≤ n) ∨
    ∃ n, n < text.length ∧ Stands tails text (n + 1) ∧
      ∀ tail, tails tail → findClosing (text ++ tail) pos opening closing = .ok n := by
  have inside := stands.inside
  rcases stands.front.search delimits 1 with ⟨level, passes⟩ | ⟨before, after, split, front, found⟩
  · refine .inl fun tail n follows closes => ?_
    unfold Source.findClosing at closes
    rw [stands.drop_append, passes tail follows] at closes
    split at closes
    · rename_i m later
      obtain ⟨k, -, rfl⟩ := Option.map_eq_some_iff.mp later
      cases closes
      rw [List.length_drop]
      omega
    · cases closes
  · have size := congrArg List.length split
    simp only [List.length_drop, List.length_append, List.length_cons] at size
    refine .inr ⟨pos + before.length, by omega, ⟨by omega, ?_⟩, fun tail follows => ?_⟩
    · rw [Nat.add_assoc, ← List.drop_drop, split, ← List.drop_drop, List.drop_left,
        List.drop_succ_cons, List.drop_zero]
      exact front
    · unfold Source.findClosing
      rw [stands.drop_append, found tail follows]

/-- A group that closes right after the front does so before all tails. -/
theorem Stands.findClosing_end (stands : Stands tails text pos)
    (delimits : Delimits opening closing) {more rest : List Char} (known : tails (closing :: more))
    (other : tails (closing :: rest))
    (closes : Source.findClosing (text ++ closing :: more) pos opening closing = .ok text.length) :
    Source.findClosing (text ++ closing :: rest) pos opening closing = .ok text.length := by
  have there : pos + (text.drop pos).length = text.length := by
    rw [List.length_drop]
    have := stands.inside
    omega
  unfold Source.findClosing at closes ⊢
  rw [stands.drop_append] at closes ⊢
  rcases stands.front.search delimits 1 with ⟨level, passes⟩ | ⟨before, after, split, -, found⟩
  · have plain : isQuote closing = false ∧ closing ≠ '/' := by cases delimits <;> decide
    have comment (rest : List Char) := commentLength_of_ne plain.2 rest
    rcases closingIndex_char plain.1 (some opening) (some closing) level with
      ⟨-, ends⟩ | ⟨deeper, -, goesOn⟩
    · rw [passes _ other, ends _ (comment rest)]
      simp only [Option.map_some, Nat.zero_add, there]
    · rw [passes _ known, goesOn _ (comment more), map_add_map_add] at closes
      split at closes
      · rename_i n later
        obtain ⟨m, -, rfl⟩ := Option.map_eq_some_iff.mp later
        injection closes with same
        omega
      · cases closes
  · rw [found _ known] at closes
    have size := congrArg List.length split
    rw [List.length_append, List.length_cons] at size
    injection closes with same
    omega

end Stands

/-! ## Tokens and fronts -/

section Tokens

variable {text : List Char} {opening closing : Char}

theorem lexemeAt_fits {c : Char} (rest : List Char) (quote : isQuote c = false)
    (plain : c ≠ backtick) : (lexemeAt (rest.length + 1) c rest).length ≤ rest.length + 1 := by
  have fits : (rest.takeWhile isWordChar).length < rest.length + 1 :=
    Nat.lt_succ_of_le (List.takeWhile_prefix _).length_le
  rcases lexemeAt_single_or quote plain fits with single | ⟨-, run, after, split, length, -⟩
  · rw [single]
    exact Nat.le_add_left _ _
  · rw [← length, ← List.length_cons (a := c), split, List.length_append]
    exact Nat.le_add_right _ _

/-- One token of the search: it is passed over, or the search ends with it. -/
theorem closingIndex_token (delimits : Delimits opening closing) {c : Char} {rest : List Char}
    {depth n : Nat} (solid : triviaLength (c :: rest) = 0) (plain : c ≠ backtick)
    (found : closingIndex (some opening) (some closing) depth (c :: rest) = some n) :
    let length := (lexemeAt (rest.length + 1) c rest).length
    n + 1 = length ∨ ∃ level m, n = m + length ∧
      closingIndex (some opening) (some closing) level ((c :: rest).drop length) = some m := by
  intro length
  cases quote : isQuote c with
  | true =>
      rw [closingIndex_literal quote] at found
      obtain ⟨m, later, rfl⟩ := Option.map_eq_some_iff.mp found
      have more := closingIndex_lt later
      rw [List.length_drop] at more
      have whole : length = tailLength c rest + 1 := by
        simp only [length, lexemeAt_quote _ _ quote]
        omega
      exact .inr ⟨depth, m, by rw [whole], by rw [whole, List.drop_succ_cons]; exact later⟩
  | false =>
      have lexed := lexed_of_unquoted solid quote plain
      have size : ((c :: rest).take length).length = length := by
        rw [List.length_take, List.length_cons]
        exact Nat.min_eq_left (lexemeAt_fits rest quote plain)
      have fits : Fits (fun d => ((c :: rest).drop length).head? = some d)
          ((c :: rest).drop length) := fun d next => next
      rcases lexed.search delimits depth with ⟨level, passes⟩ | ⟨front, split, -, ends⟩
      · have passed := passes _ fits
        rw [List.take_append_drop, found] at passed
        obtain ⟨m, later, sum⟩ := Option.map_eq_some_iff.mp passed.symm
        exact .inr ⟨level, m, by rw [← sum, size], later⟩
      · have ended := ends _ fits
        rw [List.take_append_drop, found] at ended
        cases ended
        rw [split, List.length_append] at size
        exact .inl size

/-- A search ends where a token does. -/
theorem tokens_of_closingIndex (plain : backtick ∉ text) (delimits : Delimits opening closing)
    {pos depth n : Nat}
    (found : closingIndex (some opening) (some closing) depth (text.drop pos) = some n) :
    ∃ inside, tokens text pos text.length = inside ++ tokens text (pos + n + 1) text.length := by
  induction room : text.length - pos using Nat.strongRecOn generalizing pos depth n with
  | ind bound ih =>
      obtain ⟨first, last⟩ := delimits.significant
      rw [closingIndex_trivia first.solid last.solid, List.drop_drop] at found
      obtain ⟨m, there, rfl⟩ := Option.map_eq_some_iff.mp found
      have solid := triviaLength_drop_triviaLength (text.drop pos)
      rw [List.drop_drop] at solid
      rw [tokens_triviaLength]
      generalize triviaLength (text.drop pos) = skipped at there solid ⊢
      cases here : text.drop (pos + skipped) with
      | nil =>
          rw [here, closingIndex_nil] at there
          cases there
      | cons c rest =>
          rw [here] at there solid
          have unquoted : c ≠ backtick := by
            rintro rfl
            exact plain (List.mem_of_mem_drop (here ▸ List.mem_cons_self))
          have read := nextToken_solid_whole here solid
          have advances := nextToken_advances read
          have sum : pos + (m + skipped) + 1 = pos + skipped + (m + 1) := by omega
          rw [tokens_of_some read, sum]
          dsimp only at advances ⊢
          rcases closingIndex_token delimits solid unquoted there with last | ⟨level, k, rfl, later⟩
          · rw [last]
            exact ⟨[_], rfl⟩
          · rw [← here, List.drop_drop] at later
            obtain ⟨inside, split⟩ := ih _ (by omega) later rfl
            have same : pos + skipped + (lexemeAt (rest.length + 1) c rest).length + k + 1 =
                pos + skipped + (k + (lexemeAt (rest.length + 1) c rest).length + 1) := by
              omega
            rw [split, same]
            exact ⟨_ :: inside, rfl⟩

/-- A group is closed by a token. -/
theorem exists_token_of_findClosing (plain : backtick ∉ text) (first : IsDelimiter opening)
    (last : IsDelimiter closing) (different : opening ≠ closing) {start stop : Nat}
    (closes : findClosing text start opening closing = .ok stop) :
    ∃ inside token after, tokens text start text.length = inside ++ token :: after ∧
      token.start = stop := by
  obtain ⟨n, rfl, index⟩ := findClosing_ok closes
  have same := agrees plain first last different start 1 Nat.one_pos
  rw [index, Option.map_some, eq_comm, Option.map_eq_some_iff] at same
  obtain ⟨token, closer, offset⟩ := same
  obtain ⟨inside, after, split, -⟩ := (closer?_eq_some_iff different Nat.one_pos).mp closer
  exact ⟨inside, token, after, split, offset⟩

/-- Tokens are read one after the other. -/
theorem read_of_tokens {pos stop : Nat} {inside after : List Token} {token : Token}
    (read : tokens text pos stop = inside ++ token :: after) :
    pos ≤ token.start ∧ ∀ earlier ∈ inside, earlier.stop ≤ token.start ∧
      ∃ next, pos ≤ next ∧ nextToken text next stop = some earlier := by
  induction inside generalizing pos with
  | nil =>
      obtain ⟨here, -⟩ := tokens_eq_cons read
      exact ⟨(nextToken_bounds here).1, nofun⟩
  | cons first inside ih =>
      obtain ⟨here, later⟩ := tokens_eq_cons read
      obtain ⟨beyond, between⟩ := ih later
      have bounds := nextToken_bounds here
      refine ⟨by omega, fun earlier member => ?_⟩
      rcases List.mem_cons.mp member with rfl | member
      · exact ⟨beyond, pos, Nat.le_refl pos, here⟩
      · obtain ⟨before, next, further, read⟩ := between earlier member
        exact ⟨before, next, by omega, read⟩

end Tokens

section OfTokens

variable {before last tail : List Char} {tails : List Char → Prop}

/-- Every literal among the tokens is as long before each of the tails. Those with an end of their
own are so anyway. -/
def SameLiterals (before last : List Char) (tails : List Char → Prop) (tokens : List Token) :
    Prop :=
  ∀ token ∈ tokens, token.kind = .literal → ¬ ClosedLiteral token.value.toList →
    ∀ tail, tails tail → literalLength ((before ++ tail).drop token.start) =
      literalLength ((before ++ last).drop token.start)

theorem take_drop_append {pos n : Nat} (inside : pos + n ≤ before.length) (last : List Char) :
    ((before ++ last).drop pos).take n = (before.drop pos).take n := by
  rw [List.drop_append_of_le_length (by omega), List.take_append_of_le_length]
  rw [List.length_drop]
  omega

/-- Without an apostrophe up to the character after the front, a literal of the front ends where it
does whatever comes later. -/
theorem literalLength_of_free {pos : Nat} {token : Token} {c : Char} {more : List Char}
    (read : nextToken (before ++ c :: more) pos (before ++ c :: more).length = some token)
    (literal : token.kind = .literal) (inside : token.stop ≤ before.length)
    (free : '\'' ∉ before.drop token.start ++ [c]) (rest : List Char) :
    literalLength ((before ++ c :: rest).drop token.start) =
      literalLength ((before ++ c :: more).drop token.start) := by
  obtain ⟨d, tail, here, kind, -, stop⟩ := nextToken_some read
  have bounds := nextToken_bounds read
  have early : token.start ≤ before.length := by omega
  have size := @List.length_drop _ token.start before
  rw [lexemeAt_quote _ _ (isQuote_of_literal (kind.symm.trans literal))] at stop
  rw [List.drop_append_of_le_length early] at here ⊢
  rw [List.drop_append_of_le_length early]
  generalize before.drop token.start = front at here size free
  cases front with
  | nil =>
      rw [List.length_nil] at size
      omega
  | cons e known =>
      rw [List.cons_append] at here
      obtain ⟨rfl, rfl⟩ := List.cons.inj here
      rw [List.length_cons] at size
      have settled : Settled (known ++ [c]) more :=
        .inr fun member => free (List.mem_cons_of_mem _ member)
      have whole (later : List Char) : known ++ c :: later = known ++ [c] ++ later := by simp
      have short : tailLength e (known ++ [c] ++ more) < (known ++ [c]).length := by
        rw [← whole, List.length_append, List.length_singleton]
        simp only [List.length_append, List.length_cons] at stop
        omega
      rw [List.cons_append, List.cons_append, literalLength, literalLength, whole rest, whole more,
        tailLength_append (fun n => readsAlike (settled.suffix (List.drop_suffix n _)) rest) _
          short]
      rintro rfl
      exact absurd List.mem_cons_self free

/-- What follows a place in the front starts alike before all tails. -/
theorem fits_behind {stop : Nat} (starts : ∀ tail, tails tail → tail.head? = last.head?)
    (inside : stop ≤ before.length) {tail : List Char}
    (behind : Behind (before.drop stop) tails tail) :
    Fits (fun c => ((before ++ last).drop stop).head? = some c) tail := by
  obtain ⟨tail, follows, rfl⟩ := behind
  intro c next
  rw [List.head?_append, starts tail follows, ← List.head?_append] at next
  rw [List.drop_append_of_le_length inside]
  exact next

/-- The token is the same before all tails that start with the same character. -/
theorem tokenBefore_of_nextToken {pos : Nat} {token : Token} (plain : backtick ∉ before ++ last)
    (more : last ≠ []) (starts : ∀ tail, tails tail → tail.head? = last.head?)
    (read : nextToken (before ++ last) pos (before ++ last).length = some token)
    (inside : token.stop ≤ before.length) (same : SameLiterals before last tails [token]) :
    TokenBefore (Behind (before.drop token.stop) tails)
      ((before.drop token.start).take (token.stop - token.start)) token.spelling := by
  have bounds := nextToken_bounds read
  obtain ⟨c, rest, here, solid, kind, value, stop⟩ := nextToken_some_whole read
  have size := congrArg List.length here
  have room := List.length_pos_iff.mpr more
  simp only [List.length_drop, List.length_append, List.length_cons] at size
  have unquoted : c ≠ backtick := by
    rintro rfl
    exact plain (List.mem_of_mem_drop (here ▸ List.mem_cons_self))
  have length : token.stop - token.start = (lexemeAt (rest.length + 1) c rest).length := by omega
  have fits (tail : List Char) (behind : Behind (before.drop token.stop) tails tail) := by
    have fits := fits_behind starts inside behind
    rwa [stop, ← List.drop_drop, here] at fits
  rw [← take_drop_append (by omega) last, here, length, Token.spelling, kind, value]
  by_cases lexed : isQuote c = true → ClosedLiteral token.value.toList
  · refine .lexed (lexed_of_lexemeAt solid (by omega) (fun literal => ?_)
      fun mark => absurd mark unquoted) fits
    rw [value, String.toList_ofList] at lexed
    exact lexed (isQuote_of_literal literal)
  · obtain ⟨quote, unclosed⟩ := Classical.not_imp.mp lexed
    rw [lexemeAt_quote _ _ quote] at kind stop ⊢
    have whole : min (tailLength c rest + 1) (rest.length + 1) = tailLength c rest + 1 := by
      dsimp only at stop
      omega
    rw [whole] at stop ⊢
    simp only [List.take_succ_cons]
    have short : tailLength c rest ≤ rest.length := by omega
    refine .literal quote ?_
    rintro _ ⟨tail, follows, rfl⟩
    have longer := same token List.mem_cons_self kind unclosed tail follows
    have known : before.drop token.start =
        (c :: rest.take (tailLength c rest)) ++ before.drop token.stop := by
      have bound : token.start + (tailLength c rest + 1) ≤ before.length := stop ▸ inside
      rw [stop, ← List.drop_drop, ← List.take_succ_cons, ← here, take_drop_append bound,
        List.take_append_drop]
    rw [List.drop_append_of_le_length (by omega), here, known, List.cons_append, List.cons_append,
      literalLength, literalLength, List.append_assoc] at longer
    rw [Nat.succ.inj longer, List.length_take, Nat.min_eq_left short]

/-- Where the tokens lead to the end of the front, the text up to there is a front. -/
theorem stands_of_tokens {pos : Nat} {inside after : List Token} {token : Token}
    (plain : backtick ∉ before ++ last) (more : last ≠ [])
    (starts : ∀ tail, tails tail → tail.head? = last.head?)
    (read : tokens (before ++ last) pos (before ++ last).length = inside ++ token :: after)
    (ends : token.start = before.length) (same : SameLiterals before last tails inside) :
    Stands tails before pos := by
  have room := List.length_pos_iff.mpr more
  -- The trivia before the next token, which starts in the front or right after it.
  have blank {pos : Nat} {next : Token}
      (here : nextToken (before ++ last) pos (before ++ last).length = some next)
      (early : next.start ≤ before.length) :
      IsTrivia ((before.drop pos).take (next.start - pos)) := by
    have bounds := nextToken_bounds here
    have start := nextToken_start here
    rw [← take_drop_append (by omega) last, start, Nat.add_sub_cancel_left]
    apply stretch_triviaLength
    rw [List.length_drop, List.length_append]
    omega
  induction inside generalizing pos with
  | nil =>
      obtain ⟨here, -⟩ := tokens_eq_cons read
      have bounds := nextToken_bounds here
      refine ⟨by omega, ?_⟩
      have trivia := blank here (by omega)
      rw [ends, List.take_of_length_le (by rw [List.length_drop])] at trivia
      exact .trivia trivia
  | cons first inside ih =>
      obtain ⟨here, later⟩ := tokens_eq_cons read
      have bounds := nextToken_bounds here
      have next := ih later fun token member => same token (List.mem_cons_of_mem first member)
      have early := next.inside
      have token := tokenBefore_of_nextToken plain more starts here early fun token member =>
        same token (List.mem_singleton.mp member ▸ List.mem_cons_self)
      refine ⟨by omega, ?_⟩
      have split : before.drop pos = (before.drop pos).take (first.start - pos) ++
          ((before.drop first.start).take (first.stop - first.start) ++
            before.drop first.stop) := by
        have whole {low high : Nat} (order : low ≤ high) :
            before.drop low = (before.drop low).take (high - low) ++ before.drop high := by
          have there : low + (high - low) = high := by omega
          have parts := (List.take_append_drop (high - low) (before.drop low)).symm
          rwa [List.drop_drop, there] at parts
        rw [← whole (Nat.le_of_lt bounds.2.2), ← whole bounds.1]
      rw [split]
      exact .token (blank here (by omega)) token next.front

end OfTokens

end DartBindings.Source
