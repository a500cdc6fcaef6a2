import DartBindings.Proofs.Source.Coverage

/-!
Which tokens respect the window they are read from. All do but two that the window cuts: a
symbol of two characters, which is read whole, and a quoted name that has no closing mark in the
window, which loses its last character.
-/

set_option autoImplicit false

namespace DartBindings.Source

open Text

/-- The part of the text from `start` up to `stop`. -/
def slice (text : List Char) (start stop : Nat) : List Char :=
  (text.drop start).take (stop - start)

/-- How a token of this kind and with this value is written. Literals, symbols and plain words are
written as they are, the others with their marks. A quoted name may do without its closing mark
where the window ends. -/
inductive Written (ended : Prop) : TokenKind → List Char → List Char → Prop where
  | literal {value} : Written ended .literal value value
  | symbol {value} : Written ended .symbol value value
  | marker {value} : Written ended .marker value ('@' :: value)
  | plain {value} : value.head? ≠ some backtick → Written ended .word value value
  | quoted {value} : backtick ∉ value →
      Written ended .word value (backtick :: (value ++ [backtick]))
  | unclosed {value} : backtick ∉ value → ended → Written ended .word value (backtick :: value)

/-- The token lies in the window from `pos` to `stop`, and its value is what is written there. -/
structure Token.InWindow (text : List Char) (pos stop : Nat) (token : Token) : Prop where
  after : pos ≤ token.start
  nonempty : token.start < token.stop
  inside : token.stop ≤ stop
  written : Written (token.stop = stop) token.kind token.value.toList
    (slice text token.start token.stop)

/-- An arrow or a double colon of which the window ending at `stop` has the first character only. -/
structure Token.CutSymbol (text : List Char) (stop : Nat) (token : Token) : Prop where
  last : token.start + 1 = stop
  symbol : ['-', '>'] <+: text.drop token.start ∨ [':', ':'] <+: text.drop token.start

/-- A quoted name of which the window ending at `stop` has at least one character, but not the
closing mark. -/
structure Token.CutName (text : List Char) (stop : Nat) (token : Token) : Prop where
  opened : text[token.start]? = some backtick
  begun : token.start + 1 < stop
  unclosed : backtick ∉ slice text (token.start + 1) stop

section Lexeme

variable {room : Nat} {c : Char} {rest : List Char}

theorem Written.not_cut {ended : Prop} {value span : List Char}
    (written : Written ended .word value span) (opened : span.head? = some backtick)
    (unclosed : backtick ∉ span.tail) : span.tail = value := by
  cases written with
  | plain other => exact absurd opened other
  | quoted _ => simp at unclosed
  | unclosed _ _ => rfl

theorem lexemeAt_quoted_written (inside : 0 < room)
    (whole : 1 < room → backtick ∈ rest.take (room - 1)) :
    Written ((lexemeAt room backtick rest).length = room) (lexemeAt room backtick rest).kind
      (lexemeAt room backtick rest).value
      ((backtick :: rest).take (lexemeAt room backtick rest).length) := by
  by_cases more : 1 < room
  · obtain ⟨name, others, front, plain⟩ := List.eq_append_cons_of_mem (whole more)
    have size := congrArg List.length front
    rw [List.length_take, List.length_append, List.length_cons] at size
    have split : rest = name ++ backtick :: (others ++ rest.drop (room - 1)) := by
      rw [← List.cons_append, ← List.append_assoc, ← front, List.take_append_drop]
    have span : (backtick :: rest).take (name.length + 2) =
        backtick :: (name ++ [backtick]) := by
      rw [split, List.take_succ_cons, List.take_length_add_append, List.take_succ_cons,
        List.take_zero]
    have lexeme : lexemeAt room backtick rest = ⟨.word, name, name.length + 2⟩ := by
      rw [split]
      exact lexemeAt_quoted plain (by omega) _
    rw [lexeme]
    dsimp only
    rw [span]
    exact .quoted plain
  · obtain rfl : room = 1 := by omega
    rw [lexemeAt_cut List.not_mem_nil]
    exact .unclosed List.not_mem_nil rfl

theorem symbolAt_written {ended : Prop} (c : Char) (rest : List Char) :
    Written ended (symbolAt c rest).kind (symbolAt c rest).value
      ((c :: rest).take (symbolAt c rest).length) := by
  unfold symbolAt
  split
  · exact .symbol
  · exact .symbol
  · exact .symbol

theorem wordRun_eq_take (room : Nat) (rest : List Char) :
    rest.take (wordRun room rest).length = wordRun room rest := by
  have front : wordRun room rest <+: rest :=
    (List.takeWhile_prefix _).trans (List.take_prefix _ _)
  exact (List.prefix_iff_eq_take.mp front).symm

theorem wordRun_length_le (room : Nat) (rest : List Char) : (wordRun room rest).length ≤ room :=
  ((List.takeWhile_prefix _).length_le).trans (List.length_take_le _ _)

/-- A lexeme that its window does not cut is what is written there. -/
theorem lexemeAt_written (inside : 0 < room)
    (whole : c = backtick → 1 < room → backtick ∈ rest.take (room - 1)) :
    Written ((lexemeAt room c rest).length = room) (lexemeAt room c rest).kind
      (lexemeAt room c rest).value ((c :: rest).take (lexemeAt room c rest).length) := by
  by_cases mark : c = backtick
  · subst mark
    exact lexemeAt_quoted_written inside (whole rfl)
  · unfold lexemeAt
    rw [if_neg mark]
    split
    · exact .literal
    · dsimp only
      split
      · rename_i marked
        simp only [Bool.and_eq_true, decide_eq_true_eq] at marked
        obtain ⟨rfl, -⟩ := marked
        dsimp only
        rw [List.take_succ_cons, wordRun_eq_take]
        exact .marker
      · split
        · dsimp only
          rw [List.take_succ_cons, wordRun_eq_take]
          exact .plain fun same => mark (Option.some.inj same)
        · exact symbolAt_written c rest

theorem symbolAt_length_eq_two (long : 1 < (symbolAt c rest).length) :
    ['-', '>'] <+: c :: rest ∨ [':', ':'] <+: c :: rest := by
  revert long
  unfold symbolAt
  split
  · exact fun _ => .inl ⟨_, rfl⟩
  · exact fun _ => .inr ⟨_, rfl⟩
  · exact fun long => absurd long (Nat.lt_irrefl 1)

theorem symbolAt_length_le_two (c : Char) (rest : List Char) : (symbolAt c rest).length ≤ 2 := by
  unfold symbolAt
  split
  · exact Nat.le_refl 2
  · exact Nat.le_refl 2
  · exact Nat.le_succ 1

/-- Only a symbol of two characters reaches beyond the window. -/
theorem room_lt_lexemeAt_length (inside : 0 < room)
    (beyond : room < (lexemeAt room c rest).length) :
    room = 1 ∧ (['-', '>'] <+: c :: rest ∨ [':', ':'] <+: c :: rest) := by
  have run := wordRun_length_le (room - 1) rest
  revert beyond
  unfold lexemeAt
  split
  · intro beyond
    exact absurd beyond (Nat.not_lt.mpr (Nat.min_le_right _ _))
  · split
    · intro beyond
      exact absurd beyond (Nat.not_lt.mpr (quotedName_length_le inside))
    · dsimp only
      split
      · intro beyond
        dsimp only at beyond
        omega
      · split
        · intro beyond
          dsimp only at beyond
          omega
        · intro beyond
          have two := symbolAt_length_le_two c rest
          exact ⟨by omega, symbolAt_length_eq_two (by omega)⟩

end Lexeme

section Reading

variable {text : List Char} {pos stop : Nat} {token : Token}

theorem slice_succ {start : Nat} {c : Char} {rest : List Char} (here : text.drop start = c :: rest)
    (stop : Nat) : slice text (start + 1) stop = rest.take (stop - start - 1) := by
  rw [slice, ← List.drop_drop, here, List.drop_one, List.tail_cons, Nat.sub_add_eq]

theorem slice_cons {start : Nat} {c : Char} {rest : List Char} (here : text.drop start = c :: rest)
    (inside : start < stop) : slice text start stop = c :: slice text (start + 1) stop := by
  obtain ⟨room, size⟩ : ∃ room, stop - start = room + 1 := ⟨stop - start - 1, by omega⟩
  rw [slice_succ here, slice, here, size, List.take_succ_cons, Nat.add_sub_cancel]

theorem length_slice {start : Nat} (inside : stop ≤ text.length) :
    (slice text start stop).length = stop - start := by
  rw [slice, List.length_take, List.length_drop]
  omega

/-- A symbol that the window cuts is read whole, up to one character behind the window. -/
theorem Token.CutSymbol.stop_eq (cut : token.CutSymbol text stop)
    (read : nextToken text pos stop = some token) : token.stop = stop + 1 := by
  obtain ⟨c, rest, here, -, -, ends⟩ := nextToken_some read
  obtain ⟨last, symbol⟩ := cut
  rw [here] at symbol
  have two : (lexemeAt (stop - token.start) c rest).length = 2 := by
    cases symbol with
    | inl arrow =>
        obtain ⟨after, same⟩ := arrow
        cases same
        rfl
    | inr colons =>
        obtain ⟨after, same⟩ := colons
        cases same
        rfl
  omega

/-- A quoted name that the window cuts ends with the window, and its last character is lost. -/
theorem Token.CutName.value_eq (cut : token.CutName text stop)
    (read : nextToken text pos stop = some token) :
    token.kind = .word ∧ token.stop = stop ∧
      token.value.toList = slice text (token.start + 1) (stop - 1) := by
  obtain ⟨c, rest, here, kind, value, ends⟩ := nextToken_some read
  obtain ⟨opened, begun, unclosed⟩ := cut
  rw [← List.head?_drop, here, List.head?_cons] at opened
  cases opened
  rw [slice_succ here] at unclosed ⊢
  rw [lexemeAt_cut unclosed] at kind value ends
  have room : stop - 1 - token.start - 1 = stop - token.start - 2 := by omega
  rw [value, String.toList_ofList, room]
  dsimp only at ends
  exact ⟨kind, by omega, rfl⟩

theorem Token.CutName.not_inWindow (cut : token.CutName text stop)
    (read : nextToken text pos stop = some token) (inside : stop ≤ text.length) :
    ¬ token.InWindow text pos stop := by
  intro inWindow
  obtain ⟨kind, ends, value⟩ := cut.value_eq read
  obtain ⟨c, rest, here, -, -, -⟩ := nextToken_some read
  have opened := cut.opened
  rw [← List.head?_drop, here, List.head?_cons] at opened
  cases opened
  have begun := cut.begun
  have written := inWindow.written
  rw [kind, ends, value, slice_cons here (by omega)] at written
  have lost := congrArg List.length (written.not_cut rfl cut.unclosed)
  rw [List.tail_cons, length_slice inside, length_slice (by omega)] at lost
  omega

/-- What the window does not cut is read as it is written. -/
theorem inWindow_of_whole (read : nextToken text pos stop = some token)
    (symbol : ¬ token.CutSymbol text stop) (name : ¬ token.CutName text stop) :
    token.InWindow text pos stop := by
  have bounds := nextToken_bounds read
  obtain ⟨c, rest, here, kind, value, ends⟩ := nextToken_some read
  have room : 0 < stop - token.start := by omega
  have inside : (lexemeAt (stop - token.start) c rest).length ≤ stop - token.start := by
    by_contra beyond
    obtain ⟨single, twice⟩ := room_lt_lexemeAt_length room (Nat.lt_of_not_le beyond)
    exact symbol ⟨by omega, by rwa [here]⟩
  constructor
  case after => exact bounds.1
  case nonempty => exact bounds.2.2
  case inside => omega
  case written =>
    have span : slice text token.start token.stop =
        (c :: rest).take (lexemeAt (stop - token.start) c rest).length := by
      rw [slice, here, ends, Nat.add_sub_cancel_left]
    have last : (lexemeAt (stop - token.start) c rest).length = stop - token.start ↔
        token.stop = stop := by omega
    rw [span, kind, value, String.toList_ofList, ← propext last]
    apply lexemeAt_written room
    intro quoted more
    by_contra unclosed
    rw [← slice_succ here] at unclosed
    apply name
    constructor
    case opened => rw [← List.head?_drop, here, List.head?_cons, quoted]
    case begun => omega
    case unclosed => exact unclosed

/-- A token respects the window it is read from exactly when the window does not cut it as a symbol
or as a quoted name. -/
theorem nextToken_inWindow_iff (inside : stop ≤ text.length)
    (read : nextToken text pos stop = some token) :
    token.InWindow text pos stop ↔ ¬ token.CutSymbol text stop ∧ ¬ token.CutName text stop := by
  constructor
  · intro inWindow
    constructor
    · intro cut
      have beyond := cut.stop_eq read
      have bound := inWindow.inside
      omega
    · intro cut
      exact cut.not_inWindow read inside inWindow
  · intro whole
    exact inWindow_of_whole read whole.1 whole.2

end Reading

/-- The window may end in a literal or between the characters of an arrow. -/
theorem nextToken_inWindow_open_literal :
    let text := "f(\"a->b".toList
    nextToken text 2 5 = some ⟨.literal, "\"a-", 2, 5⟩ ∧
      Token.InWindow text 2 5 ⟨.literal, "\"a-", 2, 5⟩ := by
  intro text
  have inside : 5 ≤ text.length := by decide
  have read : nextToken text 2 5 = some ⟨.literal, "\"a-", 2, 5⟩ := by decide +kernel
  have symbol : ¬ Token.CutSymbol text 5 ⟨.literal, "\"a-", 2, 5⟩ := by
    intro cut
    exact absurd cut.last (by decide)
  have name : ¬ Token.CutName text 5 ⟨.literal, "\"a-", 2, 5⟩ := by
    intro cut
    exact absurd cut.opened (by decide)
  exact ⟨read, (nextToken_inWindow_iff inside read).mpr ⟨symbol, name⟩⟩

/-- A quoted name without its closing mark loses the last character that the window has of it, and
an arrow goes on behind the window. -/
theorem nextToken_not_inWindow :
    let name := backtick :: "ab".toList
    let arrow := "a->".toList
    (nextToken name 0 3 = some ⟨.word, "a", 0, 3⟩ ∧
        ¬ Token.InWindow name 0 3 ⟨.word, "a", 0, 3⟩) ∧
      nextToken arrow 1 2 = some ⟨.symbol, "->", 1, 3⟩ ∧
        ¬ Token.InWindow arrow 1 2 ⟨.symbol, "->", 1, 3⟩ := by
  intro name arrow
  have readName : nextToken name 0 3 = some ⟨.word, "a", 0, 3⟩ := by decide +kernel
  have readArrow : nextToken arrow 1 2 = some ⟨.symbol, "->", 1, 3⟩ := by decide +kernel
  constructor
  · have cut : Token.CutName name 3 ⟨.word, "a", 0, 3⟩ := ⟨rfl, by decide, by decide⟩
    exact ⟨readName, cut.not_inWindow readName (by decide)⟩
  · refine ⟨readArrow, ?_⟩
    intro inWindow
    exact absurd inWindow.inside (by decide)

end DartBindings.Source
