import DartBindings.Proofs.Source.Trivia
import Mathlib.Data.List.TakeWhile

/-!
What a token is, read off the characters it starts with.
-/

set_option autoImplicit false

namespace DartBindings.Source

open Text

/-! ## Lexemes -/

theorem wordRun_of_fits {room : Nat} {rest : List Char}
    (fits : (rest.takeWhile isWordChar).length ≤ room) :
    wordRun room rest = rest.takeWhile isWordChar := by
  induction rest generalizing room with
  | nil => simp [wordRun]
  | cons c rest ih =>
      cases word : isWordChar c with
      | false => cases room <;> simp [wordRun, word]
      | true =>
          rw [List.takeWhile_cons_of_pos word, List.length_cons] at fits
          obtain ⟨less, rfl⟩ : ∃ less, room = less + 1 := ⟨room - 1, by omega⟩
          have recursive := @ih less (by omega)
          rw [wordRun] at recursive
          rw [wordRun, List.take_succ_cons, List.takeWhile_cons_of_pos word,
            List.takeWhile_cons_of_pos word, recursive]

/-- A character of a word, a marker, an arrow or a double colon. -/
def isTokenChar (c : Char) : Bool :=
  isWordChar c || c == '@' || c == '-' || c == '>' || c == ':'

/-- What a lexeme takes from the start of a text: characters of tokens, as many as it says. -/
def TakesTokenChars (lexeme : Lexeme) (text : List Char) : Prop :=
  ∃ run after, text = run ++ after ∧ run.length = lexeme.length ∧ ∀ c ∈ run, isTokenChar c = true

theorem takesTokenChars_word {kind : TokenKind} {value rest : List Char} {c : Char}
    (first : isTokenChar c = true) :
    TakesTokenChars ⟨kind, value, (rest.takeWhile isWordChar).length + 1⟩ (c :: rest) := by
  refine ⟨c :: rest.takeWhile isWordChar, rest.dropWhile isWordChar, ?_, rfl, ?_⟩
  · rw [List.cons_append, List.takeWhile_append_dropWhile]
  · intro d member
    rcases List.mem_cons.mp member with rfl | later
    · exact first
    · simp [isTokenChar, List.mem_takeWhile_imp later]

theorem symbolAt_single_or (c : Char) (rest : List Char) :
    symbolAt c rest = ⟨.symbol, [c], 1⟩ ∨
      (∀ d, (symbolAt c rest).value ≠ [d]) ∧ TakesTokenChars (symbolAt c rest) (c :: rest) := by
  unfold symbolAt
  split
  · rename_i after
    exact .inr ⟨by simp, ['-', '>'], after, rfl, rfl, by simp [isTokenChar]⟩
  · rename_i after
    exact .inr ⟨by simp, [':', ':'], after, rfl, rfl, by simp [isTokenChar]⟩
  · exact .inl rfl

/-- The token that starts with a significant character is that character as a symbol, or it is
no delimiter and made of token characters. Its words are to fit into the window. -/
theorem lexemeAt_single_or {room : Nat} {c : Char} {rest : List Char} (quote : isQuote c = false)
    (plain : c ≠ backtick) (fits : (rest.takeWhile isWordChar).length < room) :
    lexemeAt room c rest = ⟨.symbol, [c], 1⟩ ∨
      (∀ d, (lexemeAt room c rest).kind = .symbol → (lexemeAt room c rest).value ≠ [d]) ∧
      TakesTokenChars (lexemeAt room c rest) (c :: rest) := by
  unfold lexemeAt
  simp only [quote, plain, Bool.false_eq_true, ↓reduceIte,
    wordRun_of_fits (Nat.le_sub_one_of_lt fits)]
  split
  · rename_i marker
    simp only [Bool.and_eq_true, decide_eq_true_eq] at marker
    exact .inr ⟨by simp, takesTokenChars_word (by simp [isTokenChar, marker.1])⟩
  · split
    · rename_i word
      exact .inr ⟨by simp, takesTokenChars_word (by simp [isTokenChar, word])⟩
    · rcases symbolAt_single_or c rest with single | ⟨value, chars⟩
      · exact .inl single
      · exact .inr ⟨fun d _ => value d, chars⟩

theorem lexemeAt_quote (room : Nat) {c : Char} (rest : List Char) (quote : isQuote c = true) :
    lexemeAt room c rest = ⟨.literal, (c :: rest).take (min (tailLength c rest + 1) room),
      min (tailLength c rest + 1) room⟩ := by
  rw [lexemeAt, if_pos quote]
  rfl

theorem findIdx?_backtick {name : List Char} (plain : backtick ∉ name) :
    name.findIdx? (· == backtick) = none := by
  rw [List.findIdx?_eq_none_iff]
  intro c member
  exact beq_eq_false_iff_ne.mpr fun same => plain (same ▸ member)

/-- A quoted name is taken with both of its marks. -/
theorem lexemeAt_quoted {room : Nat} {name : List Char} (plain : backtick ∉ name)
    (inside : name.length + 2 ≤ room) (rest : List Char) :
    lexemeAt room backtick (name ++ backtick :: rest) = ⟨.word, name, name.length + 2⟩ := by
  obtain ⟨more, size⟩ : ∃ more, room - 1 = name.length + (more + 1) :=
    ⟨room - 1 - name.length - 1, by omega⟩
  have found : ((name ++ backtick :: rest).take (room - 1)).findIdx? (· == backtick) =
      some name.length := by
    rw [size, List.take_length_add_append, List.take_succ_cons, List.findIdx?_append,
      findIdx?_backtick plain]
    simp [List.findIdx?_cons]
  have quote : isQuote backtick = false := by decide
  simp only [lexemeAt, quote, Bool.false_eq_true, ↓reduceIte, quotedName, found, List.take_left]

/-- A quoted name without its closing mark is taken up to the end of the window. -/
theorem lexemeAt_cut {room : Nat} {rest : List Char}
    (unclosed : backtick ∉ rest.take (room - 1)) :
    lexemeAt room backtick rest = ⟨.word, rest.take (room - 2), room⟩ := by
  have quote : isQuote backtick = false := by decide
  simp only [lexemeAt, quote, Bool.false_eq_true, ↓reduceIte, quotedName,
    findIdx?_backtick unclosed]

/-! ## The tokens of a window -/

theorem tokens_of_none {text : List Char} {pos stop : Nat}
    (read : nextToken text pos stop = none) : tokens text pos stop = [] := by
  rw [tokens.eq_def]
  split
  · rfl
  · rename_i token other
    rw [read] at other
    cases other

theorem tokens_of_some {text : List Char} {pos stop : Nat} {token : Token}
    (read : nextToken text pos stop = some token) :
    tokens text pos stop = token :: tokens text token.stop stop := by
  rw [tokens.eq_def]
  split
  · rename_i other
    rw [read] at other
    cases other
  · rename_i found other
    rw [read] at other
    cases other
    rfl

/-- Where the same token comes next, the same tokens do. -/
theorem tokens_skip {text : List Char} {pos next stop : Nat}
    (same : nextToken text pos stop = nextToken text next stop) :
    tokens text pos stop = tokens text next stop := by
  cases read : nextToken text pos stop with
  | none => rw [tokens_of_none read, tokens_of_none (same.symm.trans read)]
  | some token => rw [tokens_of_some read, tokens_of_some (same.symm.trans read)]

theorem tokens_eq_cons {text : List Char} {pos stop : Nat} {token : Token} {rest : List Token}
    (read : tokens text pos stop = token :: rest) :
    nextToken text pos stop = some token ∧ tokens text token.stop stop = rest := by
  cases here : nextToken text pos stop with
  | none =>
      rw [tokens_of_none here] at read
      cases read
  | some first =>
      rw [tokens_of_some here] at read
      cases read
      exact ⟨rfl, rfl⟩

/-! ## Tokens by their spelling -/

/-- Names, keywords and markers, as they are spelled. -/
structure IsWord (word : List Char) : Prop where
  nonempty : word ≠ []
  chars : ∀ c ∈ word, isWordChar c = true

theorem isWord_iff_all (word : List Char) :
    (!word.isEmpty && word.all isWordChar) = true ↔ IsWord word := by
  constructor
  · intro named
    simp only [Bool.and_eq_true, Bool.not_eq_true', List.isEmpty_eq_false_iff,
      List.all_eq_true] at named
    exact ⟨named.1, named.2⟩
  · rintro ⟨nonempty, chars⟩
    simpa [nonempty] using chars

instance : DecidablePred IsWord := fun word => decidable_of_iff _ (isWord_iff_all word)

theorem symbolAt_kind (c : Char) (rest : List Char) : (symbolAt c rest).kind = .symbol := by
  unfold symbolAt
  split <;> rfl

theorem quotedName_kind (room : Nat) (rest : List Char) : (quotedName room rest).kind = .word := by
  unfold quotedName
  split <;> rfl

theorem isQuote_of_literal {room : Nat} {c : Char} {rest : List Char}
    (literal : (lexemeAt room c rest).kind = .literal) : isQuote c = true := by
  revert literal
  unfold lexemeAt
  split
  · rename_i quote
    exact fun _ => quote
  · split
    · rw [quotedName_kind]
      exact nofun
    · dsimp only
      split
      · exact nofun
      · split
        · exact nofun
        · rw [symbolAt_kind]
          exact nofun

/-- Markers, and the words that no marks quote, are the words that start the text. -/
theorem lexemeAt_named {room : Nat} {c : Char} {rest : List Char}
    (kind : (lexemeAt room c rest).kind = .marker ∨
      (lexemeAt room c rest).kind = .word ∧ c ≠ backtick) :
    (c = '@' ∧ wordRun (room - 1) rest ≠ [] ∧ lexemeAt room c rest =
        ⟨.marker, wordRun (room - 1) rest, (wordRun (room - 1) rest).length + 1⟩) ∨
      (isWordChar c = true ∧ lexemeAt room c rest =
        ⟨.word, c :: wordRun (room - 1) rest, (wordRun (room - 1) rest).length + 1⟩) := by
  unfold lexemeAt at kind ⊢
  split at kind
  · rcases kind with marker | ⟨word, -⟩
    · cases marker
    · cases word
  · rename_i noQuote
    rw [if_neg noQuote]
    split at kind
    · rename_i quoted
      rcases kind with marker | ⟨-, plain⟩
      · rw [quotedName_kind] at marker
        cases marker
      · exact absurd quoted plain
    · rename_i plain
      rw [if_neg plain]
      dsimp only at kind ⊢
      split
      · rename_i named
        simp only [Bool.and_eq_true, decide_eq_true_eq, Bool.not_eq_true',
          List.isEmpty_eq_false_iff] at named
        exact .inl ⟨named.1, named.2, rfl⟩
      · rename_i unmarked
        rw [if_neg unmarked] at kind
        split
        · rename_i word
          exact .inr ⟨word, rfl⟩
        · rename_i other
          rw [if_neg other, symbolAt_kind] at kind
          rcases kind with marker | ⟨word, -⟩
          · cases marker
          · cases word

/-- Markers, and the words that no marks quote, are made of word characters. -/
theorem lexemeAt_isWord {room : Nat} {c : Char} {rest : List Char}
    (kind : (lexemeAt room c rest).kind = .marker ∨
      (lexemeAt room c rest).kind = .word ∧ c ≠ backtick) :
    IsWord (lexemeAt room c rest).value := by
  have run : ∀ d ∈ wordRun (room - 1) rest, isWordChar d = true :=
    fun d member => List.mem_takeWhile_imp member
  rcases lexemeAt_named kind with ⟨-, nonempty, lexeme⟩ | ⟨word, lexeme⟩
  · rw [lexeme]
    exact ⟨nonempty, run⟩
  · rw [lexeme]
    exact ⟨List.cons_ne_nil _ _, List.forall_mem_cons.mpr ⟨word, run⟩⟩

theorem nextToken_some {text : List Char} {pos stop : Nat} {token : Token}
    (read : nextToken text pos stop = some token) :
    ∃ c rest, text.drop token.start = c :: rest ∧
      token.kind = (lexemeAt (stop - token.start) c rest).kind ∧
      token.value = String.ofList (lexemeAt (stop - token.start) c rest).value ∧
      token.stop = token.start + (lexemeAt (stop - token.start) c rest).length := by
  unfold nextToken at read
  dsimp only at read
  split at read
  · cases read
  · split at read
    · cases read
    · rename_i c rest here
      cases read
      exact ⟨c, rest, here, rfl, rfl, rfl⟩

theorem nextToken_start {text : List Char} {pos : Nat} {token : Token}
    (read : nextToken text pos text.length = some token) :
    token.start = pos + triviaLength (text.drop pos) := by
  have inside := (nextToken_bounds read).2.1
  unfold nextToken at read
  dsimp only at read
  split at read
  · cases read
  · split at read
    · cases read
    · cases read
      unfold skipTrivia at inside ⊢
      dsimp only at inside ⊢
      omega

/-- Up to the end of a text, a token is the lexeme that the text starts with after the trivia. -/
theorem nextToken_some_whole {text : List Char} {pos : Nat} {token : Token}
    (read : nextToken text pos text.length = some token) :
    ∃ c rest, text.drop token.start = c :: rest ∧ triviaLength (c :: rest) = 0 ∧
      token.kind = (lexemeAt (rest.length + 1) c rest).kind ∧
      token.value = String.ofList (lexemeAt (rest.length + 1) c rest).value ∧
      token.stop = token.start + (lexemeAt (rest.length + 1) c rest).length := by
  obtain ⟨c, rest, here, lexed⟩ := nextToken_some read
  have solid : triviaLength (c :: rest) = 0 := by
    rw [← here, nextToken_start read, ← List.drop_drop, triviaLength_drop_triviaLength]
  have room : text.length - token.start = rest.length + 1 := by
    rw [← List.length_drop, here, List.length_cons]
  rw [room] at lexed
  exact ⟨c, rest, here, solid, lexed⟩

theorem nextToken_marker_isWord {text : List Char} {pos stop : Nat} {token : Token}
    (read : nextToken text pos stop = some token) (marker : token.kind = .marker) :
    IsWord token.value.toList := by
  obtain ⟨c, rest, -, kind, value, -⟩ := nextToken_some read
  rw [value, String.toList_ofList]
  exact lexemeAt_isWord (.inl (kind.symm.trans marker))

/-- Without quoted names, every word is made of word characters. -/
theorem nextToken_word_isWord {text : List Char} (plain : backtick ∉ text) {pos stop : Nat}
    {token : Token} (read : nextToken text pos stop = some token) (word : token.kind = .word) :
    IsWord token.value.toList := by
  obtain ⟨c, rest, here, kind, value, -⟩ := nextToken_some read
  have member : c ∈ text := List.mem_of_mem_drop (here ▸ List.mem_cons_self)
  rw [value, String.toList_ofList]
  exact lexemeAt_isWord (.inr ⟨kind.symm.trans word, fun same => plain (same ▸ member)⟩)

/-- A word that comes right before this text ends there. -/
def EndsWord (after : List Char) : Prop :=
  ∀ c rest, after = c :: rest → isWordChar c = false

theorem endsWord_cons {c : Char} (other : isWordChar c = false) (rest : List Char) :
    EndsWord (c :: rest) := by
  intro d others same
  cases same
  exact other

theorem takeWhile_isWordChar {word after : List Char} (chars : ∀ c ∈ word, isWordChar c = true)
    (ends : EndsWord after) : (word ++ after).takeWhile isWordChar = word := by
  rw [List.takeWhile_append_of_pos chars]
  cases after with
  | nil => simp
  | cons c rest => rw [List.takeWhile_cons_of_neg (by simp [ends c rest rfl]), List.append_nil]

/-- The window that ends at `stop` reads `rest` from `pos` on. -/
structure Window (text : List Char) (stop pos : Nat) (rest : List Char) : Prop where
  here : ∃ tail, text.drop pos = rest ++ tail
  ends : pos + rest.length = stop

theorem window_whole (text : List Char) : Window text text.length 0 text :=
  ⟨⟨[], (List.append_nil text).symm⟩, Nat.zero_add _⟩

section Reading

variable {text after : List Char} {pos stop : Nat}

theorem Window.of_append (first : List Char) {last : List Char}
    (window : Window text stop pos (first ++ last)) :
    Window text stop (pos + first.length) last := by
  obtain ⟨⟨tail, here⟩, ends⟩ := window
  rw [List.length_append] at ends
  refine ⟨⟨tail, ?_⟩, by omega⟩
  rw [← List.drop_drop, here, List.append_assoc, List.drop_left]

theorem Window.take {rest : List Char} (window : Window text stop pos rest) :
    (text.drop pos).take (stop - pos) = rest := by
  obtain ⟨⟨tail, here⟩, ends⟩ := window
  have room : stop - pos = rest.length := by omega
  rw [here, room, List.take_left]

theorem Window.tail {c : Char} (window : Window text stop pos (c :: after)) :
    Window text stop (pos + 1) after :=
  window.of_append [c]

theorem Window.front {first last : List Char} (window : Window text stop pos (first ++ last)) :
    Window text (pos + first.length) pos first := by
  obtain ⟨tail, here⟩ := window.here
  exact ⟨⟨last ++ tail, by rw [here, List.append_assoc]⟩, rfl⟩

theorem Window.drop_whole {rest : List Char} (window : Window text text.length pos rest) :
    text.drop pos = rest := by
  rw [← window.take, List.take_of_length_le (by rw [List.length_drop])]

theorem nextToken_blanks {blanks : List Char} (blank : ∀ c ∈ blanks, isBlank c = true)
    (window : Window text stop pos (blanks ++ after)) :
    nextToken text pos stop = nextToken text (pos + blanks.length) stop := by
  obtain ⟨tail, here⟩ := window.here
  apply nextToken_skip
  rw [← List.drop_drop, here, List.append_assoc, List.drop_left, triviaLength_blanks blank]

theorem nextToken_blank {c : Char} (blank : isBlank c = true)
    (window : Window text stop pos (c :: after)) :
    nextToken text pos stop = nextToken text (pos + 1) stop := by
  have single : ∀ d ∈ [c], isBlank d = true := by simpa using blank
  exact nextToken_blanks single window

theorem triviaLength_solid {c : Char} (solid : isBlank c = false) (slash : c ≠ '/')
    (rest : List Char) : triviaLength (c :: rest) = 0 :=
  triviaLength_eq_zero_iff.mpr ⟨solid, commentLength_of_ne slash rest⟩

theorem triviaLength_quote {quote : Char} (quoted : isQuote quote = true) (rest : List Char) :
    triviaLength (quote :: rest) = 0 := by
  have solid : isBlank quote = false := by
    cases blank : isBlank quote with
    | false => rfl
    | true =>
        rw [isQuote_of_isBlank blank] at quoted
        cases quoted
  exact triviaLength_solid solid (ne_of_class quoted (by decide)) rest

theorem wordRun_window {word tail : List Char} (chars : ∀ c ∈ word, isWordChar c = true)
    (ends : EndsWord after) :
    wordRun (word ++ after).length ((word ++ after) ++ tail) = word := by
  rw [wordRun, List.take_left, takeWhile_isWordChar chars ends]

theorem nextToken_word {word : List Char} (named : IsWord word) (ends : EndsWord after)
    (window : Window text stop pos (word ++ after)) :
    nextToken text pos stop = some ⟨.word, String.ofList word, pos, pos + word.length⟩ := by
  obtain ⟨c, word, rfl⟩ := List.exists_cons_of_ne_nil named.nonempty
  obtain ⟨⟨tail, here⟩, size⟩ := window
  rw [List.cons_append, List.length_cons] at size
  rw [List.cons_append, List.cons_append] at here
  have room : stop - pos - 1 = (word ++ after).length := by omega
  have first := named.chars c List.mem_cons_self
  have run : wordRun (word ++ after).length ((word ++ after) ++ tail) = word :=
    wordRun_window (fun d member => named.chars d (List.mem_cons_of_mem c member)) ends
  have ne {d : Char} (other : isWordChar d = false) := ne_of_class first other
  rw [nextToken_solid here (triviaLength_solid (isBlank_of_isWordChar first) (ne (by decide)) _)
    (by omega)]
  simp only [lexemeAt, isQuote_of_isWordChar first, ne (d := backtick) (by decide), room, run,
    ne (d := '@') (by decide), first, Bool.false_eq_true, ↓reduceIte, decide_false,
    Bool.false_and, List.length_cons]

theorem nextToken_marker {word : List Char} (named : IsWord word) (ends : EndsWord after)
    (window : Window text stop pos ('@' :: (word ++ after))) :
    nextToken text pos stop = some ⟨.marker, String.ofList word, pos, pos + (word.length + 1)⟩ := by
  obtain ⟨⟨tail, here⟩, size⟩ := window
  rw [List.length_cons] at size
  rw [List.cons_append] at here
  have room : stop - pos - 1 = (word ++ after).length := by omega
  have run : wordRun (word ++ after).length ((word ++ after) ++ tail) = word :=
    wordRun_window named.chars ends
  have some : word.isEmpty = false := by simpa using named.nonempty
  rw [nextToken_solid here (triviaLength_solid (by decide) (by decide) _) (by omega)]
  have quote : isQuote '@' = false := by decide
  have mark : '@' ≠ backtick := by decide
  simp only [lexemeAt, quote, mark, room, run, some, Bool.false_eq_true, ↓reduceIte, decide_true,
    Bool.not_false, Bool.and_self]

/-- A character that starts a symbol wherever it starts a token. -/
def isSymbolStart (c : Char) : Bool :=
  !(isBlank c || isQuote c || isWordChar c) && !([backtick, '@', '/'].contains c)

theorem symbolAt_cons (c d : Char) (rest tail : List Char) :
    symbolAt c (d :: rest ++ tail) = symbolAt c (d :: rest) := by
  rw [List.cons_append]
  unfold symbolAt
  split
  · rename_i arrow
    cases arrow
    rfl
  · rename_i colons
    cases colons
    rfl
  · rename_i notArrow notColons
    split
    · rename_i arrow
      cases arrow
      exact absurd rfl (notArrow (rest ++ tail) rfl)
    · rename_i colons
      cases colons
      exact absurd rfl (notColons (rest ++ tail) rfl)
    · rfl

/-- A symbol. Its second character may lie beyond the window. -/
theorem nextToken_symbolAt {c : Char} (symbol : isSymbolStart c = true)
    (window : Window text stop pos (c :: after)) :
    ∃ tail, nextToken text pos stop =
      some ⟨(symbolAt c (after ++ tail)).kind, String.ofList (symbolAt c (after ++ tail)).value,
        pos, pos + (symbolAt c (after ++ tail)).length⟩ := by
  obtain ⟨⟨tail, here⟩, size⟩ := window
  rw [List.length_cons] at size
  simp only [isSymbolStart, Bool.and_eq_true, Bool.not_eq_true', Bool.or_eq_false_iff,
    List.contains_eq_mem, List.mem_cons, List.not_mem_nil, or_false, decide_eq_false_iff_not,
    not_or] at symbol
  obtain ⟨⟨⟨solid, quote⟩, word⟩, mark, marker, slash⟩ := symbol
  rw [List.cons_append] at here
  refine ⟨tail, ?_⟩
  rw [nextToken_solid here (triviaLength_solid solid slash _) (by omega)]
  simp only [lexemeAt, quote, word, mark, marker, Bool.false_eq_true, ↓reduceIte, decide_false,
    Bool.false_and]

theorem nextToken_symbol {c d : Char} (symbol : isSymbolStart c = true)
    (window : Window text stop pos (c :: d :: after)) :
    nextToken text pos stop =
      some ⟨(symbolAt c (d :: after)).kind, String.ofList (symbolAt c (d :: after)).value, pos,
        pos + (symbolAt c (d :: after)).length⟩ := by
  obtain ⟨tail, read⟩ := nextToken_symbolAt symbol window
  rw [read, symbolAt_cons]

theorem nextToken_single {c : Char} (symbol : isSymbolStart c = true) (noDash : c ≠ '-')
    (noColon : c ≠ ':') (window : Window text stop pos (c :: after)) :
    nextToken text pos stop = some ⟨.symbol, String.ofList [c], pos, pos + 1⟩ := by
  obtain ⟨tail, read⟩ := nextToken_symbolAt symbol window
  have single : symbolAt c (after ++ tail) = ⟨.symbol, [c], 1⟩ := by
    unfold symbolAt
    split
    · exact absurd rfl noDash
    · exact absurd rfl noColon
    · rfl
  rw [read, single]

theorem nextToken_parenthesis (here : text[pos]? = some '(')
    (inside : pos < stop) : nextToken text pos stop = some ⟨.symbol, "(", pos, pos + 1⟩ := by
  rw [← List.head?_drop, List.head?_eq_some_iff] at here
  obtain ⟨rest, here⟩ := here
  have solid : triviaLength ('(' :: rest) = 0 := triviaLength_solid (by decide) (by decide) rest
  rw [nextToken_solid here solid inside]
  rfl

/-- A quoted name is one word, whatever it is made of. -/
theorem nextToken_quoted {name : List Char} (plain : backtick ∉ name)
    (window : Window text stop pos (backtick :: (name ++ backtick :: after))) :
    nextToken text pos stop =
      some ⟨.word, String.ofList name, pos, pos + (name.length + 2)⟩ := by
  obtain ⟨⟨tail, here⟩, size⟩ := window
  simp only [List.length_cons, List.length_append] at size
  rw [List.cons_append, List.append_assoc, List.cons_append] at here
  rw [nextToken_solid here (triviaLength_solid (by decide) (by decide) _) (by omega),
    lexemeAt_quoted plain (by omega)]

/-- A quoted name that the window cuts short is one word too, up to the end of the window. -/
theorem nextToken_cut {name : List Char} (plain : backtick ∉ name)
    (window : Window text stop pos (backtick :: name)) :
    ∃ value, nextToken text pos stop = some ⟨.word, value, pos, stop⟩ := by
  obtain ⟨⟨tail, here⟩, size⟩ := window
  rw [List.length_cons] at size
  rw [List.cons_append] at here
  have taken : (name ++ tail).take (stop - pos - 1) = name := by
    rw [show stop - pos - 1 = name.length by omega, List.take_left]
  have room : pos + (stop - pos) = stop := by omega
  refine ⟨String.ofList ((name ++ tail).take (stop - pos - 2)), ?_⟩
  rw [nextToken_solid here (triviaLength_solid (by decide) (by decide) _) (by omega),
    lexemeAt_cut (by rwa [taken]), room]

/-- Nothing is read from the end of a window. -/
theorem nextToken_stop (text : List Char) (stop : Nat) : nextToken text stop stop = none := by
  have start : stop ≤ skipTrivia text stop stop := by
    unfold skipTrivia
    omega
  unfold nextToken
  rw [if_pos start]

theorem nextToken_of_ended {blanks : List Char} (blank : ∀ c ∈ blanks, isBlank c = true)
    (window : Window text stop pos blanks) : nextToken text pos stop = none := by
  obtain ⟨⟨tail, here⟩, ends⟩ := window
  have start : stop ≤ skipTrivia text pos stop := by
    rw [skipTrivia, here, triviaLength_blanks blank]
    omega
  unfold nextToken
  rw [if_pos start]

end Reading

end DartBindings.Source
