import DartBindings.Proofs.Source.Comment
import DartBindings.Proofs.Source.Gap

/-!
The tokens of a text cover it. Read one after the other to the end of the text, they leave out
blanks and comments only, and no token starts or ends in the middle of something else.
-/

set_option autoImplicit false

namespace DartBindings.Source

open Text

/-- Reading from `pos` on gives these tokens, and after the last one there is none. -/
inductive Reads (text : List Char) : Nat → List Token → Prop where
  | done {pos} : nextToken text pos text.length = none → Reads text pos []
  | token {pos token rest} : nextToken text pos text.length = some token →
      Reads text token.stop rest → Reads text pos (token :: rest)

/-- The token is a part of the text. It starts with no blank and no comment, and as a marker or as
a word that no marks quote it goes on as far as there are characters of words. -/
structure Token.InText (text : List Char) (token : Token) : Prop where
  nonempty : token.start < token.stop
  inside : token.stop ≤ text.length
  solid : ∀ c, text[token.start]? = some c → isBlank c = false
  noComment : ¬ ['/', '/'] <+: text.drop token.start ∧ ¬ ['/', '*'] <+: text.drop token.start
  longest : token.kind = .marker ∨ token.kind = .word ∧ text[token.start]? ≠ some backtick →
    ∀ c, text[token.stop]? = some c → isWordChar c = false

/-- From `pos` on the text consists of these tokens, with trivia before, between and after them. -/
inductive Covers (text : List Char) : Nat → List Token → Prop where
  | last {pos} : pos ≤ text.length → Trivia True (text.drop pos) → Covers text pos []
  | token {pos token rest} : pos ≤ token.start →
      Trivia False ((text.drop pos).take (token.start - pos)) → token.InText text →
      Covers text token.stop rest → Covers text pos (token :: rest)

section Lexeme

variable {room : Nat} {c d : Char} {rest : List Char}

theorem isWordChar_after_run (stops : rest[(rest.takeWhile isWordChar).length]? = some d) :
    isWordChar d = false := by
  rw [← List.head?_drop, dropWhile_isWordChar] at stops
  exact takeWhile_follow rest d stops

theorem wordRun_length (rest : List Char) :
    wordRun rest.length rest = rest.takeWhile isWordChar :=
  wordRun_of_fits (List.takeWhile_prefix _).length_le

/-- Words and markers take the characters of words that follow. -/
theorem lexemeAt_run (kind : (lexemeAt room c rest).kind = .marker ∨
      (lexemeAt room c rest).kind = .word ∧ c ≠ backtick) :
    (lexemeAt room c rest).length = (wordRun (room - 1) rest).length + 1 := by
  rcases lexemeAt_named kind with ⟨-, -, lexeme⟩ | ⟨-, lexeme⟩ <;> rw [lexeme]

theorem quotedName_length_le (inside : 0 < room) : (quotedName room rest).length ≤ room := by
  unfold quotedName
  split
  · rename_i n found
    have bound := (List.findIdx?_eq_some_iff_getElem.mp found).1
    rw [List.length_take] at bound
    dsimp only
    omega
  · exact Nat.le_refl room

theorem symbolAt_length_le (c : Char) (rest : List Char) :
    (symbolAt c rest).length ≤ rest.length + 1 := by
  unfold symbolAt
  split <;> simp

theorem lexemeAt_length_le (c : Char) (rest : List Char) :
    (lexemeAt (rest.length + 1) c rest).length ≤ rest.length + 1 := by
  have run : (wordRun rest.length rest).length ≤ rest.length := by
    rw [wordRun_length]
    exact (List.takeWhile_prefix _).length_le
  unfold lexemeAt
  split
  · exact Nat.min_le_right _ _
  · split
    · exact quotedName_length_le (Nat.succ_pos _)
    · dsimp only
      split
      · exact Nat.succ_le_succ run
      · split
        · exact Nat.succ_le_succ run
        · exact symbolAt_length_le c rest

end Lexeme

theorem Trivia.mono {ended other : Prop} {text : List Char} (trivia : Trivia ended text)
    (ends : ended → other) : Trivia other text := by
  induction trivia with
  | nil => exact .nil
  | blank blank _ ih => exact .blank blank ih
  | line single _ ih => exact .line single ih
  | block closed _ ih => exact .block closed ih
  | lastLine last single => exact .lastLine (ends last) single
  | unclosed last none => exact .unclosed (ends last) none

section Step

variable {text : List Char} {pos : Nat} {token : Token}

theorem not_comment_of_solid {rest : List Char} (solid : triviaLength rest = 0) :
    ¬ ['/', '/'] <+: rest ∧ ¬ ['/', '*'] <+: rest := by
  constructor
  · rintro ⟨line, rfl⟩
    have comment := (triviaLength_eq_zero_iff.mp solid).2
    cases comment
  · rintro ⟨inside, rfl⟩
    have comment := (triviaLength_eq_zero_iff.mp solid).2
    cases comment

/-- After the last token there is trivia only. -/
theorem trivia_of_none (none : nextToken text pos text.length = none) :
    Trivia True (text.drop pos) := by
  obtain ⟨front, rest, split, length, trivia⟩ := exists_trivia (text.drop pos)
  cases rest with
  | nil =>
      rw [split, List.append_nil]
      exact trivia.mono fun _ => trivial
  | cons c rest =>
      have here : text.drop (pos + front.length) = c :: rest := by
        rw [← List.drop_drop, split, List.drop_left]
      have solid : triviaLength (c :: rest) = 0 := by
        rw [← here, ← length, ← List.drop_drop, triviaLength_drop_triviaLength]
      rw [nextToken_triviaLength, length, nextToken_solid_whole here solid] at none
      cases none

/-- Before a token there is trivia only. -/
theorem trivia_of_some (read : nextToken text pos text.length = some token) :
    Trivia False ((text.drop pos).take (token.start - pos)) := by
  have bounds := nextToken_bounds read
  have start := nextToken_start read
  obtain ⟨front, rest, split, length, trivia⟩ := exists_trivia (text.drop pos)
  have size := congrArg List.length split
  rw [List.length_drop, List.length_append] at size
  have more : rest ≠ [] := by
    rintro rfl
    rw [List.length_nil] at size
    omega
  have taken : token.start - pos = front.length := by omega
  rw [split, taken, List.take_left]
  exact trivia.mono more

theorem inText_of_nextToken (read : nextToken text pos text.length = some token) :
    token.InText text := by
  have bounds := nextToken_bounds read
  obtain ⟨c, rest, here, solid, kind, -, stop⟩ := nextToken_some_whole read
  have size : text.length - token.start = rest.length + 1 := by
    rw [← List.length_drop, here, List.length_cons]
  have first : text[token.start]? = some c := by
    rw [← List.head?_drop, here, List.head?_cons]
  constructor
  case nonempty => exact bounds.2.2
  case inside =>
    have bound := lexemeAt_length_le c rest
    omega
  case solid =>
    intro d same
    rw [first] at same
    cases same
    exact (triviaLength_eq_zero_iff.mp solid).1
  case noComment =>
    rw [here]
    exact not_comment_of_solid solid
  case longest =>
    intro named d next
    rw [first, kind] at named
    have run := lexemeAt_run (named.imp_right fun word => ⟨word.1, fun same =>
      word.2 (congrArg some same)⟩)
    rw [Nat.add_sub_cancel, wordRun_length] at run
    rw [stop, run, ← List.getElem?_drop, here, List.getElem?_cons_succ] at next
    exact isWordChar_after_run next

end Step

/-! ## The whole text -/

variable {text : List Char} {pos : Nat} {tokens : List Token}

theorem reads_tokens (text : List Char) (pos : Nat) :
    Reads text pos (Source.tokens text pos text.length) := by
  generalize read : Source.tokens text pos text.length = tokens
  induction tokens generalizing pos with
  | nil =>
      cases next : nextToken text pos text.length with
      | none => exact .done next
      | some token =>
          rw [tokens_of_some next] at read
          cases read
  | cons token rest ih =>
      obtain ⟨next, later⟩ := tokens_eq_cons read
      exact .token next (ih token.stop later)

theorem Reads.covers (reads : Reads text pos tokens) (inside : pos ≤ text.length) :
    Covers text pos tokens := by
  induction reads with
  | done none => exact .last inside (trivia_of_none none)
  | token next _ ih =>
      have inText := inText_of_nextToken next
      exact .token (nextToken_bounds next).1 (trivia_of_some next) inText (ih inText.inside)

theorem Covers.ordered (covers : Covers text pos tokens) :
    (∀ token ∈ tokens, pos ≤ token.start) ∧
      tokens.Pairwise fun earlier later => earlier.stop ≤ later.start := by
  induction covers with
  | last => exact ⟨fun _ member => absurd member List.not_mem_nil, .nil⟩
  | token after _ inText _ ih =>
      obtain ⟨behind, ordered⟩ := ih
      constructor
      · intro other member
        rcases List.mem_cons.mp member with rfl | later
        · exact after
        · have further := behind other later
          have advances := inText.nonempty
          omega
      · exact .cons behind ordered

/-- Reading from the start of a text comes to an end. The tokens are parts of the text in its
order, and trivia is all that lies outside of them. -/
theorem tokens_cover (text : List Char) :
    Reads text 0 (Source.tokens text 0 text.length) ∧
      Covers text 0 (Source.tokens text 0 text.length) ∧
      (Source.tokens text 0 text.length).Pairwise fun earlier later =>
        earlier.stop ≤ later.start := by
  have reads := reads_tokens text 0
  have covers := reads.covers (Nat.zero_le _)
  exact ⟨reads, covers, covers.ordered.2⟩

end DartBindings.Source
