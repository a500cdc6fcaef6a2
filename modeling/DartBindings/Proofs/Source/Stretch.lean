import DartBindings.Proofs.Source.Locality

/-!
Stretches of whole tokens and trivia. What a stretch is read as depends on the text after it only
through the first character of that text, so a stretch comes with the characters that may follow.
-/

set_option autoImplicit false

namespace DartBindings.Source

open Text

/-! ## Single tokens -/

/-- A text that is one comment, whatever comes after it. -/
def IsComment (text : List Char) : Prop :=
  ∀ rest, commentLength (text ++ rest) = text.length

/-- A literal that ends where it does whatever comes after it. Three quotes in a row would be
another mark. -/
def ClosedLiteral (literal : List Char) : Prop :=
  ∀ rest, (literal = ['"', '"'] → rest.head? ≠ some '"') →
    literalLength (literal ++ rest) = literal.length

/-- Characters of quoted names that mean nothing to the readers that know no quoted names. -/
def isPlainNameChar (c : Char) : Bool :=
  !(isQuote c || c == backtick) &&
    !(['/', '(', ')', '[', ']', '\x7b', '\x7d', '<', '>', ',', ':', '='].contains c)

def isSymbolChar (c : Char) : Bool :=
  !(isBlank c || isQuote c || isWordChar c || c == backtick)

/-- The symbol `c` makes neither a longer token nor a comment with the character after it. -/
def standsApart (c next : Char) : Bool :=
  !(c == '-' && next == '>') && !(c == ':' && next == ':') && !(c == '@' && isWordChar next) &&
    !(c == '/' && (next == '/' || next == '*'))

/-- What a token is, apart from where it stands. -/
abbrev Spelling := TokenKind × String

def Token.spelling (token : Token) : Spelling := (token.kind, token.value)

/-- The text is one token if one of these characters, or none, follows. -/
inductive Lexed (follow : Char → Prop) : List Char → Spelling → Prop where
  | literal {quote : Char} {tail : List Char} : isQuote quote = true →
      ClosedLiteral (quote :: tail) → (quote :: tail = ['"', '"'] → ¬ follow '"') →
      Lexed follow (quote :: tail) (.literal, String.ofList (quote :: tail))
  | word {word : List Char} : IsWord word → (∀ c, follow c → isWordChar c = false) →
      Lexed follow word (.word, String.ofList word)
  | marker {word : List Char} : IsWord word → (∀ c, follow c → isWordChar c = false) →
      Lexed follow ('@' :: word) (.marker, String.ofList word)
  | quoted {name : List Char} : (∀ c ∈ name, isPlainNameChar c = true) →
      Lexed follow (backtick :: (name ++ [backtick])) (.word, String.ofList name)
  | arrow : Lexed follow ['-', '>'] (.symbol, "->")
  | colons : Lexed follow [':', ':'] (.symbol, "::")
  | symbol {c : Char} : isSymbolChar c = true → (∀ d, follow d → standsApart c d = true) →
      Lexed follow [c] (.symbol, String.ofList [c])

/-- The text starts with one of these characters, or it is empty. -/
def Fits (follow : Char → Prop) (text : List Char) : Prop :=
  ∀ c ∈ text.head?, follow c

section Lexed

variable {follow : Char → Prop} {text rest : List Char} {spelling : Spelling}

theorem Lexed.nonempty (lexed : Lexed follow text spelling) : text ≠ [] := by
  cases lexed with
  | literal => exact List.cons_ne_nil _ _
  | word named => exact named.nonempty
  | marker => exact List.cons_ne_nil _ _
  | quoted => exact List.cons_ne_nil _ _
  | arrow => exact List.cons_ne_nil _ _
  | colons => exact List.cons_ne_nil _ _
  | symbol => exact List.cons_ne_nil _ _

theorem Fits.endsWord (fits : Fits follow rest) (ends : ∀ c, follow c → isWordChar c = false) :
    EndsWord rest := by
  rintro c after rfl
  exact ends c (fits c rfl)

theorem commentLength_apart {c : Char} (fits : Fits follow rest)
    (apart : ∀ d, follow d → standsApart c d = true) : commentLength (c :: rest) = 0 := by
  by_cases slash : c = '/'
  · subst slash
    cases rest with
    | nil => rfl
    | cons d rest =>
        have stands := apart d (fits d rfl)
        simp only [standsApart, beq_self_eq_true, Bool.true_and, Bool.and_eq_true,
          Bool.not_eq_true', Bool.or_eq_false_iff, beq_eq_false_iff_ne] at stands
        rw [commentLength.eq_def]
        split
        · rename_i same
          cases same
          exact absurd rfl stands.2.1
        · rename_i same
          cases same
          exact absurd rfl stands.2.2
        · rfl
  · exact commentLength_of_ne slash rest

/-- A closed literal takes all of its text and nothing more. -/
theorem ClosedLiteral.tailLength_eq {quote : Char} {tail : List Char}
    (closed : ClosedLiteral (quote :: tail)) (apart : quote :: tail = ['"', '"'] → ¬ follow '"')
    (fits : Fits follow rest) : tailLength quote (tail ++ rest) = tail.length := by
  have length : literalLength (quote :: tail ++ rest) = (quote :: tail).length := by
    apply closed rest
    intro empty starts
    exact apart empty (fits '"' starts)
  exact Nat.succ.inj length

theorem Lexed.solid (lexed : Lexed follow text spelling) (fits : Fits follow rest) :
    triviaLength (text ++ rest) = 0 := by
  cases lexed with
  | literal quoted => exact triviaLength_quote quoted _
  | word named =>
      obtain ⟨c, word, rfl⟩ := List.exists_cons_of_ne_nil named.nonempty
      have first := named.chars c List.mem_cons_self
      exact triviaLength_solid (isBlank_of_isWordChar first) (ne_of_class first (by decide)) _
  | marker => exact triviaLength_solid (by decide) (by decide) _
  | quoted => exact triviaLength_solid (by decide) (by decide) _
  | arrow => exact triviaLength_solid (by decide) (by decide) _
  | colons => exact triviaLength_solid (by decide) (by decide) _
  | @symbol c symbol apart =>
      simp only [isSymbolChar, Bool.not_eq_true', Bool.or_eq_false_iff] at symbol
      exact triviaLength_eq_zero_iff.mpr ⟨symbol.1.1.1, commentLength_apart fits apart⟩

theorem wordRun_append {word : List Char} (chars : ∀ c ∈ word, isWordChar c = true)
    (ends : EndsWord rest) {room : Nat} (fits : word.length ≤ room) :
    wordRun room (word ++ rest) = word := by
  have run := takeWhile_isWordChar chars ends
  rw [wordRun_of_fits (by rwa [run]), run]

theorem symbolAt_apart {c : Char} (fits : Fits follow rest)
    (apart : ∀ d, follow d → standsApart c d = true) : symbolAt c rest = ⟨.symbol, [c], 1⟩ := by
  unfold symbolAt
  split
  · exact absurd (apart '>' (fits '>' rfl)) (by decide)
  · exact absurd (apart ':' (fits ':' rfl)) (by decide)
  · rfl

/-- Read in a window that holds all of it, the text is this token. -/
theorem Lexed.lexemeAt (lexed : Lexed follow text spelling) (fits : Fits follow rest) {room : Nat}
    (inside : text.length ≤ room) :
    ∃ c tail, text = c :: tail ∧
      lexemeAt room c (tail ++ rest) = ⟨spelling.1, spelling.2.toList, text.length⟩ := by
  cases lexed with
  | @literal quote tail quoted closed apart =>
      refine ⟨quote, tail, rfl, ?_⟩
      rw [lexemeAt_quote _ _ quoted, closed.tailLength_eq apart fits,
        ← List.length_cons (a := quote), Nat.min_eq_left inside, ← List.cons_append,
        List.take_left, String.toList_ofList]
  | word named ends =>
      obtain ⟨c, word, rfl⟩ := List.exists_cons_of_ne_nil named.nonempty
      refine ⟨c, word, rfl, ?_⟩
      have first := named.chars c List.mem_cons_self
      have run := wordRun_append (fun d member => named.chars d (List.mem_cons_of_mem c member))
        (fits.endsWord ends) (Nat.le_sub_one_of_lt inside)
      have ne {d : Char} (other : isWordChar d = false) := ne_of_class first other
      simp only [Source.lexemeAt, isQuote_of_isWordChar first, ne (d := backtick) (by decide), run,
        ne (d := '@') (by decide), first, Bool.false_eq_true, ↓reduceIte, decide_false,
        Bool.false_and, List.length_cons, String.toList_ofList]
  | @marker word named ends =>
      refine ⟨'@', word, rfl, ?_⟩
      have run := wordRun_append named.chars (fits.endsWord ends) (Nat.le_sub_one_of_lt inside)
      have some : word.isEmpty = false := by simpa using named.nonempty
      have quote : isQuote '@' = false := by decide
      have mark : '@' ≠ backtick := by decide
      simp only [Source.lexemeAt, quote, mark, run, some, Bool.false_eq_true, ↓reduceIte,
        decide_true, Bool.not_false, Bool.and_self, List.length_cons, String.toList_ofList]
  | @quoted name plain =>
      refine ⟨backtick, name ++ [backtick], rfl, ?_⟩
      rw [List.length_cons, List.length_append, List.length_singleton] at inside ⊢
      have unmarked : backtick ∉ name := fun member =>
        ne_of_class (plain backtick member) (by decide) rfl
      rw [List.append_assoc, List.singleton_append, lexemeAt_quoted unmarked inside,
        String.toList_ofList]
  | arrow =>
      refine ⟨'-', ['>'], rfl, ?_⟩
      rfl
  | colons =>
      refine ⟨':', [':'], rfl, ?_⟩
      rfl
  | @symbol c symbol apart =>
      refine ⟨c, [], rfl, ?_⟩
      simp only [isSymbolChar, Bool.not_eq_true', Bool.or_eq_false_iff, beq_eq_false_iff_ne]
        at symbol
      obtain ⟨⟨⟨-, quote⟩, word⟩, mark⟩ := symbol
      have unmarked : (decide (c = '@') && !(wordRun (room - 1) rest).isEmpty) = false := by
        by_cases at' : c = '@'
        · subst at'
          have ends : EndsWord rest := by
            apply fits.endsWord
            intro d next
            simpa [standsApart] using apart d next
          have run : wordRun (room - 1) rest = [] :=
            @wordRun_append rest [] (by simp) ends (room - 1) (Nat.zero_le _)
          simp [run]
        · simp [at']
      simp only [Source.lexemeAt, List.nil_append, quote, mark, unmarked, word,
        symbolAt_apart fits apart, Bool.false_eq_true, ↓reduceIte, String.toList_ofList,
        List.length_singleton]

/-- The brackets whose groups are passed over. -/
inductive Delimits : Char → Char → Prop where
  | round : Delimits '(' ')'
  | curly : Delimits '\x7b' '\x7d'
  | angle : Delimits '<' '>'

theorem Delimits.inert_of_class {opening closing c : Char} (delimits : Delimits opening closing)
    {p : Char → Bool} (member : p c = true) (quotes : p '"' = false ∧ p '\'' = false)
    (slash : p '/' = false)
    (brackets : ['(', ')', '\x7b', '\x7d', '<', '>'].any p = false) :
    Inert (some opening) (some closing) c := by
  have apart : p opening = false ∧ p closing = false := by
    simp only [List.any_cons, List.any_nil, Bool.or_eq_false_iff] at brackets
    cases delimits <;> simp [brackets]
  exact Source.inert_of_class member quotes slash apart.1 apart.2

theorem Delimits.significant {opening closing : Char} (delimits : Delimits opening closing) :
    Significant (some opening) ∧ Significant (some closing) := by
  cases delimits with
  | round | curly | angle =>
      exact ⟨significant_of_solid (by decide) (by decide),
        significant_of_solid (by decide) (by decide)⟩

theorem Delimits.lexed {opening closing : Char} (delimits : Delimits opening closing) :
    Lexed follow [closing] (.symbol, String.ofList [closing]) := by
  cases delimits with
  | round => exact .symbol (by decide) fun _ _ => rfl
  | curly => exact .symbol (by decide) fun _ _ => rfl
  | angle => exact .symbol (by decide) fun _ _ => rfl

/-- A search either passes over the token or ends with it, at its last character. -/
theorem Lexed.search (lexed : Lexed follow text spelling) {opening closing : Char}
    (delimits : Delimits opening closing) (depth : Nat) :
    (∃ level, ∀ rest, Fits follow rest →
      closingIndex (some opening) (some closing) depth (text ++ rest) =
        (closingIndex (some opening) (some closing) level rest).map (· + text.length)) ∨
    ∃ front, text = front ++ [closing] ∧ (closing ≠ '>' → front = []) ∧
      ∀ rest, Fits follow rest →
        closingIndex (some opening) (some closing) depth (text ++ rest) = some front.length := by
  have inert {run : List Char} (each : ∀ c ∈ run, Inert (some opening) (some closing) c) :
      ∃ level, ∀ rest, Fits follow rest →
        closingIndex (some opening) (some closing) depth (run ++ rest) =
          (closingIndex (some opening) (some closing) level rest).map (· + run.length) :=
    ⟨depth, fun rest _ => closingIndex_inert each rest⟩
  have word {run : List Char} (chars : ∀ c ∈ run, isWordChar c = true) :
      ∀ c ∈ run, Inert (some opening) (some closing) c := fun c member =>
    delimits.inert_of_class (chars c member) (by decide) (by decide) (by decide)
  cases lexed with
  | @literal quote tail quoted closed apart =>
      refine .inl ⟨depth, fun rest fits => ?_⟩
      rw [List.cons_append, closingIndex_literal quoted, closed.tailLength_eq apart fits,
        List.drop_left, List.length_cons]
  | word named => exact .inl (inert (word named.chars))
  | @marker name named =>
      refine .inl (inert ?_)
      intro c member
      rcases List.mem_cons.mp member with rfl | later
      · cases delimits <;> simp [Inert, isQuote]
      · exact word named.chars c later
  | @quoted name plain =>
      refine .inl (inert ?_)
      intro c member
      simp only [List.mem_cons, List.mem_append, List.not_mem_nil, or_false] at member
      rcases member with rfl | inside | rfl
      · cases delimits <;> simp [Inert, isQuote, backtick]
      · exact delimits.inert_of_class (plain c inside) (by decide) (by decide) (by decide)
      · cases delimits <;> simp [Inert, isQuote, backtick]
  | arrow =>
      cases delimits with
      | round => exact .inl (inert (by simp [Inert, isQuote]))
      | curly => exact .inl (inert (by simp [Inert, isQuote]))
      | angle =>
          have dash (rest : List Char) :
              closingIndex (some '<') (some '>') depth ('-' :: '>' :: rest) =
                (closingIndex (some '<') (some '>') depth ('>' :: rest)).map (· + 1) :=
            closingIndex_other (by decide) (commentLength_of_ne (by decide) _) (by decide)
              (by decide)
          have solid (rest : List Char) : commentLength ('>' :: rest) = 0 :=
            commentLength_of_ne (by decide) rest
          have quote : isQuote '>' = false := by decide
          rcases closingIndex_char quote (some '<') (some '>') depth with
            ⟨-, ends⟩ | ⟨level, -, goesOn⟩
          · refine .inr ⟨['-'], rfl, fun other => absurd rfl other, fun rest _ => ?_⟩
            exact (dash rest).trans (congrArg _ (ends rest (solid rest)))
          · refine .inl ⟨level, fun rest _ => ?_⟩
            refine (dash rest).trans ((congrArg _ (goesOn rest (solid rest))).trans ?_)
            rw [map_add_map_add, List.length_cons, List.length_singleton]
  | colons =>
      refine .inl (inert ?_)
      cases delimits <;> simp [Inert, isQuote]
  | @symbol c symbol apart =>
      simp only [isSymbolChar, Bool.not_eq_true', Bool.or_eq_false_iff] at symbol
      have quote := symbol.1.1.2
      have comment (rest : List Char) (fits : Fits follow rest) := commentLength_apart fits apart
      rcases closingIndex_char quote (some opening) (some closing) depth with
        ⟨closes, ends⟩ | ⟨level, -, goesOn⟩
      · cases closes
        exact .inr ⟨[], rfl, fun _ => rfl, fun rest fits => ends rest (comment rest fits)⟩
      · exact .inl ⟨level, fun rest fits => goesOn rest (comment rest fits)⟩

end Lexed

/-! ## Stretches -/

/-- What may follow a text that this one follows, where these characters may follow both. -/
def First (follow : Char → Prop) : List Char → Char → Prop
  | [], c => follow c
  | d :: _, c => c = d

/-- A text of whole tokens, spelled like this, with trivia between them. -/
inductive Stretch (follow : Char → Prop) : List Char → List Spelling → Prop where
  | nil : Stretch follow [] []
  | blank {c : Char} {text : List Char} {spellings : List Spelling} : isBlank c = true →
      Stretch follow text spellings → Stretch follow (c :: text) spellings
  | comment {comment text : List Char} {spellings : List Spelling} : IsComment comment →
      Stretch follow text spellings → Stretch follow (comment ++ text) spellings
  | token {token text : List Char} {spelling : Spelling} {spellings : List Spelling} :
      Lexed (First follow text) token spelling → Stretch follow text spellings →
      Stretch follow (token ++ text) (spelling :: spellings)

section Stretch

variable {follow : Char → Prop} {text rest : List Char} {spelling : Spelling}
  {spellings : List Spelling}

theorem Fits.first (fits : Fits follow rest) (text : List Char) :
    Fits (First follow text) (text ++ rest) := by
  cases text with
  | nil => exact fits
  | cons c text =>
      intro d first
      rw [List.cons_append, List.head?_cons, Option.mem_some_iff] at first
      exact first.symm

theorem First.append (follow : Char → Prop) (first second : List Char) (c : Char) :
    First follow (first ++ second) c ↔ First (First follow second) first c := by
  cases first with
  | nil => exact Iff.rfl
  | cons d first => exact Iff.rfl

theorem Lexed.mono {allowed : Char → Prop} (lexed : Lexed follow text spelling)
    (fewer : ∀ c, allowed c → follow c) : Lexed allowed text spelling := by
  cases lexed with
  | literal quoted closed apart =>
      exact .literal quoted closed fun empty next => apart empty (fewer _ next)
  | word named ends => exact .word named fun c next => ends c (fewer c next)
  | marker named ends => exact .marker named fun c next => ends c (fewer c next)
  | quoted plain => exact .quoted plain
  | arrow => exact .arrow
  | colons => exact .colons
  | symbol symbol apart => exact .symbol symbol fun d next => apart d (fewer d next)

theorem Stretch.append {more : List Spelling} (first : Stretch (First follow rest) text spellings)
    (second : Stretch follow rest more) : Stretch follow (text ++ rest) (spellings ++ more) := by
  induction first with
  | nil => exact second
  | blank blank _ ih => exact .blank blank ih
  | comment comment _ ih =>
      rw [List.append_assoc]
      exact .comment comment ih
  | token lexed _ ih =>
      rw [List.append_assoc]
      exact .token (lexed.mono fun c next => (First.append follow _ rest c).mp next) ih

theorem IsComment.exists_cons (comment : IsComment text) : ∃ c tail, text = c :: tail := by
  cases text with
  | nil => cases comment ['/', '/']
  | cons c tail => exact ⟨c, tail, rfl⟩

theorem IsComment.trivia (comment : IsComment text) (rest : List Char) :
    triviaLength (text ++ rest) = triviaLength rest + text.length := by
  obtain ⟨c, tail, rfl⟩ := comment.exists_cons
  have length : commentLength (c :: (tail ++ rest)) = tail.length + 1 := comment rest
  rw [List.cons_append, triviaLength_comment length, List.drop_left, List.length_cons]

theorem IsComment.search (comment : IsComment text) {opening closing : Char}
    (delimits : Delimits opening closing) (depth : Nat) (rest : List Char) :
    closingIndex (some opening) (some closing) depth (text ++ rest) =
      (closingIndex (some opening) (some closing) depth rest).map (· + text.length) := by
  obtain ⟨c, tail, rfl⟩ := comment.exists_cons
  have length : commentLength (c :: (tail ++ rest)) = tail.length + 1 := comment rest
  obtain ⟨first, last⟩ := delimits.significant
  rw [List.cons_append, closingIndex_comment first.solid last.solid length, List.drop_left,
    List.length_cons]

/-- Before the first token of a stretch, and in a stretch without one, there is only trivia. -/
theorem Stretch.trivia (stretch : Stretch follow text []) (rest : List Char) :
    triviaLength (text ++ rest) = triviaLength rest + text.length := by
  generalize ended : ([] : List Spelling) = spellings at stretch
  induction stretch with
  | nil => rfl
  | blank blank _ ih =>
      rw [List.cons_append, triviaLength_blank blank, ih ended, List.length_cons, Nat.add_assoc]
  | comment comment _ ih =>
      rw [List.append_assoc, comment.trivia, ih ended, List.length_append]
      omega
  | token => cases ended

/-- The first token of a stretch, with the trivia before it, and the rest of the stretch. -/
theorem Stretch.split (stretch : Stretch follow text (spelling :: spellings)) :
    ∃ trivia token after, text = trivia ++ (token ++ after) ∧
      Stretch (First follow (token ++ after)) trivia [] ∧
      Lexed (First follow after) token spelling ∧ Stretch follow after spellings := by
  generalize more : spelling :: spellings = all at stretch
  induction stretch with
  | nil => cases more
  | @blank c text _ blank _ ih =>
      obtain ⟨trivia, token, after, rfl, before, lexed, later⟩ := ih more
      exact ⟨c :: trivia, token, after, rfl, .blank blank before, lexed, later⟩
  | @comment comment text _ isComment _ ih =>
      obtain ⟨trivia, token, after, rfl, before, lexed, later⟩ := ih more
      refine ⟨comment ++ trivia, token, after, ?_, .comment isComment before, lexed, later⟩
      rw [List.append_assoc]
  | @token token text _ _ lexed later _ =>
      cases more
      exact ⟨[], token, text, rfl, .nil, lexed, later⟩

theorem Stretch.mono {allowed : Char → Prop} (stretch : Stretch follow text spellings)
    (fewer : ∀ c, allowed c → follow c) : Stretch allowed text spellings := by
  induction stretch with
  | nil => exact .nil
  | blank blank _ ih => exact .blank blank ih
  | comment comment _ ih => exact .comment comment ih
  | @token token text _ _ lexed _ ih =>
      refine .token (lexed.mono ?_) ih
      intro c next
      cases text with
      | nil => exact fewer c next
      | cons d text => exact next

/-! ## Reading a stretch -/

section Reading

variable {source : List Char} {pos stop : Nat}

theorem Stretch.skip (stretch : Stretch follow text []) (here : source.drop pos = text ++ rest)
    (stop : Nat) : nextToken source pos stop = nextToken source (pos + text.length) stop := by
  apply nextToken_skip
  rw [← List.drop_drop, here, List.drop_left, stretch.trivia]

/-- What is read in a window that holds the trivia and the token. -/
theorem Lexed.nextToken {trivia token after : List Char}
    (lexed : Lexed (First follow after) token spelling)
    (before : Stretch (First follow (token ++ after)) trivia [])
    (here : source.drop pos = trivia ++ (token ++ after) ++ rest) (fits : Fits follow rest)
    (inside : pos + trivia.length + token.length ≤ stop) :
    nextToken source pos stop = some ⟨spelling.1, spelling.2, pos + trivia.length,
      pos + trivia.length + token.length⟩ := by
  have there : source.drop (pos + trivia.length) = token ++ (after ++ rest) := by
    rw [← List.drop_drop, here, List.append_assoc, List.drop_left, List.append_assoc]
  have follows : Fits (First follow after) (after ++ rest) := fits.first after
  have room : token.length ≤ stop - (pos + trivia.length) := by omega
  obtain ⟨c, tail, rfl, lexeme⟩ := lexed.lexemeAt follows room
  have solid := lexed.solid follows
  rw [List.cons_append] at there solid
  rw [List.append_assoc] at here
  rw [before.skip here, nextToken_solid there solid (by rw [List.length_cons] at inside; omega),
    lexeme, String.ofList_toList]

/-- A search with `depth` open levels passes over the text, and `level` are open then. -/
def Passes (follow : Char → Prop) (opening closing : Char) (depth : Nat) (text : List Char)
    (level : Nat) : Prop :=
  ∀ rest, Fits follow rest →
    closingIndex (some opening) (some closing) depth (text ++ rest) =
      (closingIndex (some opening) (some closing) level rest).map (· + text.length)

/-- A search with `depth` open levels ends in the stretch, after one of its tokens. -/
structure ClosesIn (follow : Char → Prop) (opening closing : Char) (depth : Nat)
    (text front after : List Char) (later : List Spelling) : Prop where
  split : text = front ++ closing :: after
  stretch : Stretch follow after later
  through : ∃ earlier, Stretch (First follow after) (front ++ [closing]) earlier
  /-- The angle may end an arrow. -/
  before : closing ≠ '>' → ∃ earlier, Stretch (· = closing) front earlier
  found : ∀ rest, Fits follow rest →
    closingIndex (some opening) (some closing) depth (text ++ rest) = some front.length

section Closing

variable {opening closing : Char} {depth level next : Nat} {run front after : List Char}
  {later more : List Spelling}

theorem Passes.append (first : Passes (First follow text) opening closing depth run level)
    (second : Passes follow opening closing level text next) :
    Passes follow opening closing depth (run ++ text) next := by
  intro rest fits
  rw [List.append_assoc, first _ (fits.first text), second rest fits, map_add_map_add,
    List.length_append, Nat.add_comm text.length]

/-- Whole tokens and trivia may come before any stretch that starts like the text. -/
def Precedes (follow : Char → Prop) (run text : List Char) : Prop :=
  ∀ {allowed : Char → Prop} {start : List Char} {spellings : List Spelling},
    (∀ c, First allowed start c → First follow text c) → Stretch allowed start spellings →
      ∃ all, Stretch allowed (run ++ start) all

theorem ClosesIn.append (first : Passes (First follow text) opening closing depth run level)
    (second : ClosesIn follow opening closing level text front after later)
    (precedes : Precedes follow run text) :
    ClosesIn follow opening closing depth (run ++ text) (run ++ front) after later where
  split := by rw [second.split, List.append_assoc]
  stretch := second.stretch
  through := by
    obtain ⟨earlier, stretch⟩ := second.through
    rw [List.append_assoc]
    refine precedes ?_ stretch
    intro c next
    rw [← First.append, List.append_assoc, List.singleton_append, ← second.split] at next
    exact next
  before := by
    intro noAngle
    obtain ⟨earlier, stretch⟩ := second.before noAngle
    refine precedes ?_ stretch
    intro c
    rw [second.split, First.append]
    cases front with
    | nil => exact id
    | cons d front => exact id
  found := by
    intro rest fits
    rw [List.append_assoc, first _ (fits.first text), second.found rest fits, Option.map_some,
      List.length_append, Nat.add_comm front.length]

theorem Delimits.passes_blank (delimits : Delimits opening closing) {c : Char}
    (blank : isBlank c = true) : Passes follow opening closing depth [c] depth := by
  intro rest _
  apply closingIndex_inert
  intro d member
  rw [List.mem_singleton.mp member]
  exact delimits.inert_of_class blank (by decide) (by decide) (by decide)

theorem Stretch.search (stretch : Stretch follow text spellings)
    (delimits : Delimits opening closing) (depth : Nat) :
    (∃ level, Passes follow opening closing depth text level) ∨
      ∃ front after later, ClosesIn follow opening closing depth text front after later := by
  induction stretch generalizing depth with
  | nil =>
      refine .inl ⟨depth, fun rest _ => ?_⟩
      rw [List.nil_append, List.length_nil]
      exact Option.map_id'.symm
  | @blank c text spellings blank stretch ih =>
      have first : Passes (First follow text) opening closing depth [c] depth :=
        delimits.passes_blank blank
      rcases ih depth with ⟨level, passes⟩ | ⟨front, after, later, closes⟩
      · exact .inl ⟨level, first.append passes⟩
      · refine .inr ⟨c :: front, after, later, ClosesIn.append first closes ?_⟩
        exact fun _ stretch => ⟨_, .blank blank stretch⟩
  | @comment comment text spellings isComment stretch ih =>
      have first : Passes (First follow text) opening closing depth comment depth :=
        fun rest _ => isComment.search delimits depth rest
      rcases ih depth with ⟨level, passes⟩ | ⟨front, after, later, closes⟩
      · exact .inl ⟨level, first.append passes⟩
      · refine .inr ⟨comment ++ front, after, later, ClosesIn.append first closes ?_⟩
        exact fun _ stretch => ⟨_, .comment isComment stretch⟩
  | @token token text spelling spellings lexed stretch ih =>
      rcases lexed.search delimits depth with ⟨level, first⟩ | ⟨front, rfl, single, found⟩
      · rcases ih level with ⟨last, passes⟩ | ⟨front, after, later, closes⟩
        · exact .inl ⟨last, Passes.append first passes⟩
        · refine .inr ⟨token ++ front, after, later, ClosesIn.append first closes ?_⟩
          exact fun fewer stretch => ⟨_, .token (lexed.mono fewer) stretch⟩
      · refine .inr ⟨front, text, spellings, ?_, stretch, ?_, ?_, ?_⟩
        · rw [List.append_assoc, List.singleton_append]
        · refine ⟨[spelling], ?_⟩
          have alone : Stretch (First follow text) (front ++ [closing] ++ []) [spelling] :=
            .token lexed .nil
          rwa [List.append_nil] at alone
        · intro noAngle
          rw [single noAngle]
          exact ⟨[], .nil⟩
        · intro rest fits
          rw [List.append_assoc]
          exact found _ (fits.first text)

end Closing

/-- The tokens from a stretch on are those in it, and then the ones after it. -/
theorem Stretch.tokens (stretch : Stretch follow text spellings)
    (here : source.drop pos = text ++ rest) (fits : Fits follow rest) :
    ∃ inside, inside.map Token.spelling = spellings ∧ tokens source pos source.length =
      inside ++ tokens source (pos + text.length) source.length := by
  induction stretch generalizing pos with
  | nil => exact ⟨[], rfl, rfl⟩
  | @blank c text spellings blank stretch ih =>
      have alone : Stretch follow [c] [] := .blank blank .nil
      have next : source.drop (pos + 1) = text ++ rest := by
        rw [← List.drop_drop, here]
        rfl
      obtain ⟨inside, spelled, read⟩ := ih next
      refine ⟨inside, spelled, ?_⟩
      have skipped := alone.skip here source.length
      rw [List.length_singleton] at skipped
      rw [tokens_skip skipped, List.length_cons, Nat.add_comm text.length, ← Nat.add_assoc]
      exact read
  | @comment comment text spellings isComment stretch ih =>
      have alone : Stretch follow (comment ++ []) [] := .comment isComment .nil
      rw [List.append_nil] at alone
      rw [List.append_assoc] at here
      have next : source.drop (pos + comment.length) = text ++ rest := by
        rw [← List.drop_drop, here, List.drop_left]
      obtain ⟨inside, spelled, read⟩ := ih next
      refine ⟨inside, spelled, ?_⟩
      rw [tokens_skip (alone.skip here source.length), List.length_append, ← Nat.add_assoc]
      exact read
  | @token token text spelling spellings lexed stretch ih =>
      have inside : pos + token.length ≤ source.length := by
        have size := congrArg List.length here
        simp only [List.length_drop, List.length_append] at size
        have some := List.length_pos_iff.mpr lexed.nonempty
        omega
      have read := lexed.nextToken .nil here fits inside
      have next : source.drop (pos + token.length) = text ++ rest := by
        rw [← List.drop_drop, here, List.append_assoc, List.drop_left]
      obtain ⟨later, spelled, readLater⟩ := ih next
      refine ⟨⟨spelling.1, spelling.2, pos, pos + token.length⟩ :: later, ?_, ?_⟩
      · rw [List.map_cons, spelled]
        rfl
      · rw [tokens_of_some read, List.cons_append, List.length_append, ← Nat.add_assoc, ← readLater]
        rfl

end Reading

end Stretch

end DartBindings.Source
