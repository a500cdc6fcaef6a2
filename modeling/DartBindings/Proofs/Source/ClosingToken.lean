import DartBindings.Proofs.Source.Closing
import DartBindings.Proofs.Source.Token

/-!
The search for a closing delimiter and the tokens.

The search reads characters and the tokens are read as such, but in a text without quoted names
both find the same delimiter: a token is a delimiter of its own, or the search passes it whole.
-/

set_option autoImplicit false

namespace DartBindings.Source

open Text

/-! ## The closing token -/

def Token.isSymbol (token : Token) (c : Char) : Bool :=
  token.kind == .symbol && token.value == String.ofList [c]

/-- The levels that are open after these tokens, where `depth` are open before them. -/
def openLevels (opening closing : Char) (depth : Nat) (tokens : List Token) : Int :=
  depth + tokens.countP (·.isSymbol opening) - tokens.countP (·.isSymbol closing)

/-- Where `depth` levels are open before these tokens, the token after them is the first one
that closes the last level. -/
structure Closes (opening closing : Char) (depth : Nat) (before : List Token) (token : Token) :
    Prop where
  symbol : token.isSymbol closing = true
  last : openLevels opening closing depth (before ++ [token]) = 0
  first : ∀ earlier, earlier <+: before → openLevels opening closing depth earlier ≠ 0

/-- The token that closes the last of `depth` levels. -/
def closer? (opening closing : Char) (depth : Nat) : List Token → Option Token
  | [] => none
  | token :: rest =>
    if token.isSymbol opening then closer? opening closing (depth + 1) rest
    else if token.isSymbol closing then
      if depth ≤ 1 then some token else closer? opening closing (depth - 1) rest
    else closer? opening closing depth rest

theorem Token.isSymbol_iff {token : Token} {c : Char} :
    token.isSymbol c = true ↔ token.kind = .symbol ∧ token.value = String.ofList [c] := by
  simp [Token.isSymbol]

theorem Token.isSymbol_single (c d : Char) (start stop : Nat) :
    Token.isSymbol ⟨.symbol, String.ofList [c], start, stop⟩ d = (c == d) := by
  rw [Bool.eq_iff_iff]
  simp [Token.isSymbol]

theorem Token.not_isSymbol_of_ne {token : Token} {c d : Char} (different : c ≠ d)
    (symbol : token.isSymbol c = true) : token.isSymbol d = false := by
  rw [Bool.eq_false_iff]
  intro other
  have same := (isSymbol_iff.mp symbol).2.symm.trans (isSymbol_iff.mp other).2
  exact different (by simpa using String.ofList_injective same)

section Levels

variable {opening closing : Char} {depth next : Nat} {first token : Token} {before : List Token}

theorem openLevels_opening (depth : Nat) (different : opening ≠ closing)
    (symbol : first.isSymbol opening = true)
    (tokens : List Token) :
    openLevels opening closing depth (first :: tokens) =
      openLevels opening closing (depth + 1) tokens := by
  simp only [openLevels, List.countP_cons, symbol, first.not_isSymbol_of_ne different symbol]
  simp
  omega

theorem openLevels_closing (different : opening ≠ closing) (symbol : first.isSymbol closing = true)
    (positive : 0 < depth) (tokens : List Token) :
    openLevels opening closing depth (first :: tokens) =
      openLevels opening closing (depth - 1) tokens := by
  simp only [openLevels, List.countP_cons, symbol, first.not_isSymbol_of_ne different.symm symbol]
  simp
  omega

theorem openLevels_other (depth : Nat) (notOpening : first.isSymbol opening = false)
    (notClosing : first.isSymbol closing = false) (tokens : List Token) :
    openLevels opening closing depth (first :: tokens) =
      openLevels opening closing depth tokens := by
  simp [openLevels, notOpening, notClosing]

theorem closes_cons_iff (positive : 0 < depth)
    (shift : ∀ tokens, openLevels opening closing depth (first :: tokens) =
      openLevels opening closing next tokens) :
    Closes opening closing depth (first :: before) token ↔
      Closes opening closing next before token := by
  constructor
  · rintro ⟨symbol, last, nonzero⟩
    refine ⟨symbol, by rwa [List.cons_append, shift] at last, ?_⟩
    intro earlier start
    rw [← shift]
    exact nonzero _ (List.cons_prefix_cons.mpr ⟨rfl, start⟩)
  · rintro ⟨symbol, last, nonzero⟩
    refine ⟨symbol, by rwa [List.cons_append, shift], ?_⟩
    intro earlier start
    cases earlier with
    | nil =>
        simp only [openLevels, List.countP_nil]
        omega
    | cons other earlier =>
        obtain ⟨rfl, within⟩ := List.cons_prefix_cons.mp start
        rw [shift]
        exact nonzero _ within

/-- If the first token closes nothing for good, the closing token is a later one. -/
theorem exists_closes_cons_iff {rest : List Token} (positive : 0 < depth)
    (stays : first.isSymbol closing = true → openLevels opening closing depth [first] ≠ 0)
    (shift : ∀ tokens, openLevels opening closing depth (first :: tokens) =
      openLevels opening closing next tokens) :
    (∃ before after, first :: rest = before ++ token :: after ∧
        Closes opening closing depth before token) ↔
      ∃ before after, rest = before ++ token :: after ∧
        Closes opening closing next before token := by
  constructor
  · rintro ⟨before, after, split, closes⟩
    cases before with
    | nil =>
        obtain ⟨rfl, rfl⟩ := List.cons.inj split
        exact absurd closes.last (stays closes.symbol)
    | cons other before =>
        obtain ⟨rfl, rfl⟩ := List.cons.inj split
        exact ⟨before, after, rfl, (closes_cons_iff positive shift).mp closes⟩
  · rintro ⟨before, after, rfl, closes⟩
    exact ⟨first :: before, after, rfl, (closes_cons_iff positive shift).mpr closes⟩

theorem closer?_eq_some_iff (different : opening ≠ closing) (positive : 0 < depth)
    {tokens : List Token} :
    closer? opening closing depth tokens = some token ↔
      ∃ before after, tokens = before ++ token :: after ∧
        Closes opening closing depth before token := by
  induction tokens generalizing depth with
  | nil => simp [closer?]
  | cons first rest ih =>
      rw [closer?]
      by_cases opens : first.isSymbol opening = true
      · have shift := openLevels_opening depth different opens
        rw [if_pos opens, ih (Nat.succ_pos depth), exists_closes_cons_iff positive _ shift]
        intro closes
        rw [first.not_isSymbol_of_ne different opens] at closes
        cases closes
      · rw [if_neg opens]
        by_cases closes : first.isSymbol closing = true
        · have shift := openLevels_closing different closes positive
          rw [if_pos closes]
          by_cases last : depth ≤ 1
          · have one : depth = 1 := by omega
            subst one
            have done : openLevels opening closing 1 [first] = 0 := by
              rw [shift]
              rfl
            rw [if_pos last, Option.some.injEq]
            constructor
            · rintro rfl
              refine ⟨[], rest, rfl, closes, done, ?_⟩
              intro earlier start
              rw [List.prefix_nil.mp start]
              simp [openLevels]
            · rintro ⟨before, after, split, found⟩
              cases before with
              | nil => exact (List.cons.inj split).1
              | cons other before =>
                  obtain ⟨rfl, rfl⟩ := List.cons.inj split
                  exact absurd done (found.first [first] (by simp))
          · rw [if_neg last, ih (by omega), exists_closes_cons_iff positive _ shift]
            intro _
            rw [shift]
            simp only [openLevels, List.countP_nil]
            omega
        · have shift := openLevels_other depth (Bool.eq_false_iff.mpr opens)
            (Bool.eq_false_iff.mpr closes)
          rw [if_neg closes, ih positive, exists_closes_cons_iff positive _ shift]
          intro other
          exact absurd other closes

end Levels

/-! ## Tokens and characters -/

theorem tokens_triviaLength (text : List Char) (pos stop : Nat) :
    tokens text pos stop = tokens text (pos + triviaLength (text.drop pos)) stop :=
  tokens_skip (nextToken_triviaLength text pos stop)

/-- Delimiters that the search and the tokens tell alike: no character of another token, and
neither blank nor the mark of a literal or of a comment. -/
def IsDelimiter (c : Char) : Prop :=
  isTokenChar c = false ∧ isBlank c = false ∧ isQuote c = false ∧ c ≠ '/'

theorem inert_of_isTokenChar {opening closing c : Char} (first : IsDelimiter opening)
    (last : IsDelimiter closing) (member : isTokenChar c = true) :
    Inert (some opening) (some closing) c :=
  inert_of_class member (by decide) (by decide) first.1 last.1

section Search

variable {text rest : List Char} {opening closing c : Char} {pos depth : Nat}

/-- At this offset the search and the tokens find the same delimiter, whatever the depth. -/
def Agrees (text : List Char) (opening closing : Char) (pos : Nat) : Prop :=
  ∀ depth, 0 < depth →
    (closingIndex (some opening) (some closing) depth (text.drop pos)).map (pos + ·) =
      (closer? opening closing depth (tokens text pos text.length)).map (·.start)

theorem agrees_depth_of_passed {token : Token} (here : text.drop pos = c :: rest)
    (read : nextToken text pos text.length = some token)
    (notOpening : token.isSymbol opening = false) (notClosing : token.isSymbol closing = false)
    (passed : closingIndex (some opening) (some closing) depth (c :: rest) =
      (closingIndex (some opening) (some closing) depth (text.drop token.stop)).map
        (· + (token.stop - pos)))
    (positive : 0 < depth) (later : Agrees text opening closing token.stop) :
    (closingIndex (some opening) (some closing) depth (text.drop pos)).map (pos + ·) =
      (closer? opening closing depth (tokens text pos text.length)).map (·.start) := by
  have advances := (nextToken_advances read).1
  have offset : (fun n => pos + n) ∘ (fun n => n + (token.stop - pos)) =
      fun n => token.stop + n := by
    funext n
    simp only [Function.comp]
    omega
  rw [here, passed, tokens_of_some read, closer?, notOpening, notClosing, Option.map_map, offset]
  exact later depth positive

theorem agrees_of_literal (here : text.drop pos = c :: rest) (solid : triviaLength (c :: rest) = 0)
    (quote : isQuote c = true) (later : ∀ next, pos < next → Agrees text opening closing next) :
    Agrees text opening closing pos := by
  intro depth positive
  have read := nextToken_solid_whole here solid
  rw [lexemeAt_quote (rest.length + 1) rest quote] at read
  refine agrees_depth_of_passed here read rfl rfl ?_ positive (later _ (nextToken_advances read).1)
  rw [closingIndex_literal quote, ← List.drop_drop, here]
  -- the search leaves the literal where the token stops, unless the text ends first
  by_cases fits : tailLength c rest ≤ rest.length
  · rw [Nat.min_eq_left (by omega), List.drop_succ_cons]
    simp
  · rw [Nat.min_eq_right (by omega), List.drop_of_length_le (by omega),
      List.drop_of_length_le (by simp)]
    simp

theorem agrees_of_symbol (here : text.drop pos = c :: rest) (solid : triviaLength (c :: rest) = 0)
    (quote : isQuote c = false) (single : lexemeAt (rest.length + 1) c rest = ⟨.symbol, [c], 1⟩)
    (different : opening ≠ closing) (next : Agrees text opening closing (pos + 1)) :
    Agrees text opening closing pos := by
  intro depth positive
  obtain ⟨_, comment⟩ := triviaLength_eq_zero_iff.mp solid
  have read := nextToken_solid_whole here solid
  rw [single] at read
  have step : text.drop (pos + 1) = rest := by
    rw [← List.drop_drop, here, List.drop_succ_cons, List.drop_zero]
  have shift : (fun n => pos + n) ∘ (fun n => n + 1) = fun n => pos + 1 + n := by
    funext n
    simp only [Function.comp]
    omega
  by_cases opens : c = opening
  · have notClosing : c ≠ closing := opens ▸ different
    subst opens
    rw [here, closingIndex_opening quote comment, tokens_of_some read, closer?,
      Token.isSymbol_single, beq_self_eq_true, if_pos rfl, Option.map_map, shift, ← step]
    exact next (depth + 1) (Nat.succ_pos depth)
  · have notOpening : (c == opening) = false := by simpa using opens
    by_cases closes : c = closing
    · subst closes
      rw [here, closingIndex_closing quote comment (by simpa using opens), tokens_of_some read,
        closer?, Token.isSymbol_single, Token.isSymbol_single, notOpening, beq_self_eq_true,
        if_neg Bool.false_ne_true, if_pos rfl]
      by_cases last : depth ≤ 1
      · simp [last]
      · rw [if_neg last, if_neg last, Option.map_map, shift, ← step]
        exact next (depth - 1) (by omega)
    · have notClosing : (c == closing) = false := by simpa using closes
      refine agrees_depth_of_passed here read ((Token.isSymbol_single ..).trans notOpening)
        ((Token.isSymbol_single ..).trans notClosing) ?_ positive next
      rw [closingIndex_other quote comment (by simpa using opens) (by simpa using closes), step]
      simp

theorem agrees_of_tokenChars (here : text.drop pos = c :: rest)
    (solid : triviaLength (c :: rest) = 0) (first : IsDelimiter opening)
    (last : IsDelimiter closing)
    (noSymbol : ∀ d, (lexemeAt (rest.length + 1) c rest).kind = .symbol →
      (lexemeAt (rest.length + 1) c rest).value ≠ [d])
    (chars : TakesTokenChars (lexemeAt (rest.length + 1) c rest) (c :: rest))
    (later : ∀ next, pos < next → Agrees text opening closing next) :
    Agrees text opening closing pos := by
  intro depth positive
  have read := nextToken_solid_whole here solid
  generalize lexemeAt (rest.length + 1) c rest = lexeme at read noSymbol chars
  obtain ⟨run, after, split, length, inside⟩ := chars
  have none (d : Char) : Token.isSymbol ⟨lexeme.kind, String.ofList lexeme.value, pos,
      pos + lexeme.length⟩ d = false := by
    rw [Bool.eq_false_iff]
    intro symbolic
    obtain ⟨kind, value⟩ := Token.isSymbol_iff.mp symbolic
    exact noSymbol d kind (String.ofList_injective value)
  refine agrees_depth_of_passed here read (none opening) (none closing) ?_ positive
    (later _ (nextToken_advances read).1)
  have remaining : text.drop (pos + lexeme.length) = after := by
    rw [← List.drop_drop, here, split, ← length, List.drop_left]
  have inert : ∀ d ∈ run, Inert (some opening) (some closing) d := fun d member =>
    inert_of_isTokenChar first last (inside d member)
  rw [remaining, split, closingIndex_inert inert, length]
  simp

theorem agrees_of_later (here : text.drop pos = c :: rest) (solid : triviaLength (c :: rest) = 0)
    (plain : c ≠ backtick) (first : IsDelimiter opening) (last : IsDelimiter closing)
    (different : opening ≠ closing)
    (later : ∀ next, pos < next → Agrees text opening closing next) :
    Agrees text opening closing pos := by
  cases quote : isQuote c with
  | true => exact agrees_of_literal here solid quote later
  | false =>
      have fits : (rest.takeWhile isWordChar).length < rest.length + 1 :=
        Nat.lt_succ_of_le (List.takeWhile_prefix _).length_le
      rcases lexemeAt_single_or quote plain fits with single | ⟨noSymbol, chars⟩
      · exact agrees_of_symbol here solid quote single different (later _ (Nat.lt_succ_self pos))
      · exact agrees_of_tokenChars here solid first last noSymbol chars later

theorem agrees (plain : backtick ∉ text) (first : IsDelimiter opening) (last : IsDelimiter closing)
    (different : opening ≠ closing) (pos : Nat) : Agrees text opening closing pos := by
  -- tokens differ in length, so the induction is on what is left of the text
  induction room : text.length - pos using Nat.strongRecOn generalizing pos with
  | ind bound ih =>
      have start : Agrees text opening closing (pos + triviaLength (text.drop pos)) := by
        cases here : text.drop (pos + triviaLength (text.drop pos)) with
        | nil =>
            intro depth _
            rw [here, tokens_of_none (nextToken_of_drop_nil here text.length)]
            simp [closer?]
        | cons c rest =>
            have solid := triviaLength_drop_triviaLength (text.drop pos)
            rw [List.drop_drop, here] at solid
            have member : c ∈ text := List.mem_of_mem_drop (here ▸ List.mem_cons_self)
            have unquoted : c ≠ backtick := fun same => plain (same ▸ member)
            apply agrees_of_later here solid unquoted first last different
            intro next beyond
            refine ih (text.length - next) ?_ next rfl
            have := congrArg List.length here
            rw [List.length_drop, List.length_cons] at this
            omega
      intro depth positive
      have found := start depth positive
      rw [← List.drop_drop] at found
      rw [closingIndex_trivia, tokens_triviaLength, ← found, Option.map_map]
      · congr 1
        funext n
        simp only [Function.comp]
        omega
      · intro c blank
        simpa using ne_of_class blank first.2.1
      · intro c blank
        simpa using ne_of_class blank last.2.1

end Search

/-! ## The two agree -/

/-- The token that closes the group whose body starts at `start`, read among the tokens. -/
def IsClosing (text : List Char) (opening closing : Char) (start : Nat) (token : Token) : Prop :=
  ∃ before after, tokens text start text.length = before ++ token :: after ∧
    Closes opening closing 1 before token

/-- In a text without quoted names the brace or parenthesis that closes a group is the first such
token at which the levels that the tokens open and close drop to none, and a group is unclosed
exactly if there is no such token. -/
theorem findClosing_iff_isClosing {text : List Char} (plain : backtick ∉ text)
    {opening closing : Char} (pair : (opening, closing) ∈ [('\x7b', '\x7d'), ('(', ')')])
    (start : Nat) :
    (∀ found, findClosing text start opening closing = .ok found ↔
      ∃ token, IsClosing text opening closing start token ∧ token.start = found) ∧
    (∀ failure, findClosing text start opening closing = .error failure ↔
      failure = ⟨start, text.drop start⟩ ∧
        ¬ ∃ token, IsClosing text opening closing start token) := by
  obtain ⟨first, last, different⟩ :
      IsDelimiter opening ∧ IsDelimiter closing ∧ opening ≠ closing := by
    simp only [List.mem_cons, Prod.mk.injEq, List.not_mem_nil, or_false] at pair
    rcases pair with ⟨rfl, rfl⟩ | ⟨rfl, rfl⟩ <;> simp only [IsDelimiter] <;> decide
  have search (token : Token) : closer? opening closing 1 (tokens text start text.length) =
      some token ↔ IsClosing text opening closing start token :=
    closer?_eq_some_iff different Nat.one_pos
  have same := agrees plain first last different start 1 Nat.one_pos
  unfold findClosing
  cases index : closingIndex (some opening) (some closing) 1 (text.drop start) with
  | none =>
      rw [index, Option.map_none, eq_comm, Option.map_eq_none_iff] at same
      have never : ¬ ∃ token, IsClosing text opening closing start token := by
        rintro ⟨token, closes⟩
        rw [(search token).mpr closes] at same
        cases same
      constructor
      · intro found
        constructor
        · intro impossible
          cases impossible
        · rintro ⟨token, closes, -⟩
          exact absurd ⟨token, closes⟩ never
      · intro failure
        simp only [Except.error.injEq, never, not_false_eq_true, and_true]
        exact eq_comm
  | some n =>
      rw [index, Option.map_some, eq_comm, Option.map_eq_some_iff] at same
      obtain ⟨token, closer, offset⟩ := same
      have closes := (search token).mp closer
      constructor
      · intro found
        simp only [Except.ok.injEq]
        constructor
        · rintro rfl
          exact ⟨token, closes, offset⟩
        · rintro ⟨other, otherCloses, rfl⟩
          have equal := closer.symm.trans ((search other).mpr otherCloses)
          rw [← offset, Option.some.inj equal]
      · intro failure
        constructor
        · intro impossible
          cases impossible
        · rintro ⟨-, never⟩
          exact absurd ⟨token, closes⟩ never

theorem findClosing_iff_isClosing_nested :
    backtick ∉ "\"$\x7bx\x7d\" /* \x7d */ \x7d".toList ∧
      ('\x7b', '\x7d') ∈ [('\x7b', '\x7d'), ('(', ')')] ∧
      ∃ token, IsClosing "\"$\x7bx\x7d\" /* \x7d */ \x7d".toList '\x7b' '\x7d' 0 token ∧
        token.start = 15 := by
  refine ⟨by decide, by decide, ?_⟩
  have index : closingIndex (some '\x7b') (some '\x7d') 1
      ("\"$\x7bx\x7d\" /* \x7d */ \x7d".toList.drop 0) = some 15 := by
    decide +kernel
  refine ((findClosing_iff_isClosing (by decide) (by decide) 0).1 15).mp ?_
  rw [findClosing, index]

end DartBindings.Source
