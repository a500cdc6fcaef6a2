import DartBindings.Proofs.Source.Closing
import DartBindings.Proofs.Source.Pieces
import DartBindings.Source.TypeText

/-!
Texts with nested brackets, as types are spelled, and how the readers of the source pass over
them: each reader comes out of such a text in the state in which it went in.
-/

set_option autoImplicit false

namespace DartBindings.Source

open Text

/-- A character of a type that is no bracket: of a name, or a mark of an optional type. -/
def isTypeChar (c : Char) : Bool :=
  isWordChar c || c == '?' || c == '!'

inductive Paired : Char → Char → Prop where
  | round : Paired '(' ')'
  | square : Paired '[' ']'
  | angle : Paired '<' '>'

/-- A text whose brackets are balanced. Commas and colons are `inside` brackets only, and the
angle of an arrow is no bracket. -/
inductive Nested : (inside : Bool) → List Char → Prop where
  | nil {inside} : Nested inside []
  | char {inside c} : isTypeChar c = true → Nested inside [c]
  | blank {inside} : Nested inside [' ']
  | arrow {inside} : Nested inside ['-', '>']
  | separator {c} : c = ',' ∨ c = ':' → Nested true [c]
  | append {inside first last} :
      Nested inside first → Nested inside last → Nested inside (first ++ last)
  | group {inside opening closing text} :
      Paired opening closing → Nested true text → Nested inside (opening :: (text ++ [closing]))

theorem isQuote_of_isTypeChar {c : Char} (type : isTypeChar c = true) : isQuote c = false :=
  isQuote_of_class type (by decide) (by decide)

theorem Nested.within {inside : Bool} {text : List Char} (nested : Nested inside text) :
    Nested true text := by
  induction nested with
  | nil => exact .nil
  | char type => exact .char type
  | blank => exact .blank
  | arrow => exact .arrow
  | separator cut => exact .separator cut
  | append _ _ first last => exact .append first last
  | group paired nested _ => exact .group paired nested

theorem Nested.word {inside : Bool} {word : List Char} (chars : ∀ c ∈ word, isWordChar c = true) :
    Nested inside word := by
  induction word with
  | nil => exact .nil
  | cons c word ih =>
      have first : Nested inside [c] := .char (by simp [isTypeChar, chars c List.mem_cons_self])
      exact first.append (ih fun d member => chars d (List.mem_cons_of_mem _ member))

/-! ## Characters -/

def isNestedChar (c : Char) : Bool :=
  isTypeChar c || [' ', '-', '>', ',', ':', '(', ')', '[', ']', '<'].contains c

theorem Nested.chars {inside : Bool} {text : List Char} (nested : Nested inside text) :
    ∀ c ∈ text, isNestedChar c = true := by
  induction nested with
  | nil => simp
  | char type => simp [isNestedChar, type]
  | blank => simp [isNestedChar]
  | arrow => simp [isNestedChar]
  | separator cut => rcases cut with rfl | rfl <;> simp [isNestedChar]
  | append _ _ first last =>
      intro c member
      rcases List.mem_append.mp member with before | after
      · exact first c before
      · exact last c after
  | @group inside opening closing text paired _ ih =>
      intro c member
      rw [List.mem_cons, List.mem_append, List.mem_singleton] at member
      rcases member with rfl | inner | rfl
      · cases paired <;> decide
      · exact ih c inner
      · cases paired <;> decide

theorem isQuote_of_isNestedChar {c : Char} (nested : isNestedChar c = true) :
    isQuote c = false :=
  isQuote_of_class nested (by decide) (by decide)

/-! ## Cutting -/

theorem extendFirst_append (first last : List Char) (pieces : List (List Char)) :
    extendFirst (first ++ last) pieces = extendFirst first (extendFirst last pieces) := by
  cases pieces <;> simp [extendFirst]

theorem Depths.enter_ne_level (depths : Depths) (kind : Bracket) : depths.enter kind ≠ .level := by
  cases kind <;> simp [Depths.enter, Depths.level]

theorem Depths.leave_enter (depths : Depths) (kind : Bracket) :
    (depths.enter kind).leave kind = depths := by
  cases kind <;> simp [Depths.enter, Depths.leave]

/-- The state of a splitter outside default values, with these brackets open. -/
def SplitState.within (depths : Depths) : SplitState := ⟨depths, false, false⟩

theorem step_typeChar {c : Char} (type : isTypeChar c = true) (depths : Depths) :
    (SplitState.within depths).step c = .within depths := by
  have opened : Bracket.opened? c = none := by
    unfold Bracket.opened?
    split <;> first | rfl | (revert type; decide)
  have closed : Bracket.closed? c = none := by
    unfold Bracket.closed?
    split <;> first | rfl | (revert type; decide)
  have equals : (c == '=') = false := by simpa using ne_of_class type (by decide)
  have dash : (c == '-') = false := by simpa using ne_of_class type (by decide)
  simp [SplitState.step, SplitState.within, opened, closed, equals, dash]

theorem Paired.step {opening closing : Char} (paired : Paired opening closing) :
    ∃ kind, (∀ depths, (SplitState.within depths).step opening = .within (depths.enter kind)) ∧
      ∀ depths, (SplitState.within depths).step closing = .within (depths.leave kind) := by
  cases paired with
  | round => exact ⟨.round, fun _ => rfl, fun _ => rfl⟩
  | square => exact ⟨.square, fun _ => rfl, fun _ => rfl⟩
  | angle => exact ⟨.angle, fun _ => rfl, fun _ => rfl⟩

theorem isTypeChar_of_isSeparator {c : Char} (separator : isSeparator c = true) :
    isTypeChar c = false := by
  rcases eq_of_isSeparator separator with rfl | rfl | rfl <;> decide

theorem Nested.cutPieces {inside : Bool} {text : List Char} (nested : Nested inside text)
    {separator : Char} (proper : isSeparator separator = true) {depths : Depths}
    (deep : inside = true → depths ≠ .level) (rest : List Char) :
    cutPieces [separator] (.within depths) (text ++ rest) =
      extendFirst text (cutPieces [separator] (.within depths) rest) := by
  have ne {c : Char} (other : isSeparator c = false) : c ≠ separator :=
    (ne_of_class proper other).symm
  induction nested generalizing depths rest with
  | nil => exact (extendFirst_nil (cutPieces_ne_nil _ _ _)).symm
  | @char inside c type =>
      have different := ne_of_class type (isTypeChar_of_isSeparator proper)
      rw [List.singleton_append, cutPieces_char (isQuote_of_isTypeChar type)
        fun same => absurd same different, step_typeChar type]
  | blank =>
      have uncut : ' ' ≠ separator := ne (by decide)
      rw [List.singleton_append, cutPieces_char (by decide) fun same => absurd same uncut]
      rfl
  | arrow =>
      rw [List.cons_append, List.singleton_append,
        cutPieces_char (by decide) fun same => absurd same (ne (by decide)),
        cutPieces_char (by decide) fun same => absurd same (ne (by decide)), ← extendFirst_append]
      rfl
  | @separator c cut =>
      have level := deep rfl
      have quote : isQuote c = false := by rcases cut with rfl | rfl <;> decide
      have step : (SplitState.within depths).step c = .within depths := by
        rcases cut with rfl | rfl <;> rfl
      rw [List.singleton_append, cutPieces_char quote fun _ => level, step]
  | append _ _ first last =>
      rw [List.append_assoc, first deep, last deep, extendFirst_append]
  | @group inside opening closing text paired _ ih =>
      obtain ⟨kind, enter, leave⟩ := paired.step
      have quotes : isQuote opening = false ∧ isQuote closing = false := by
        cases paired <;> decide
      have cuts : opening ≠ separator ∧ closing ≠ separator := by
        cases paired <;> exact ⟨ne (by decide), ne (by decide)⟩
      rw [List.cons_append, cutPieces_char quotes.1 fun same => absurd same cuts.1, enter,
        List.append_assoc, ih fun _ => depths.enter_ne_level kind, List.singleton_append,
        cutPieces_char quotes.2 fun same => absurd same cuts.2, leave, depths.leave_enter,
        ← extendFirst_append, ← extendFirst_append]
      simp

/-! ## Closing delimiters -/

section Closing

variable {opening closing : Char}

theorem inert_of_ne {c : Char} (nested : isNestedChar c = true)
    (notOpening : c ≠ opening) (notClosing : c ≠ closing) :
    Inert (some opening) (some closing) c :=
  ⟨isQuote_of_isNestedChar nested, ne_of_class nested (by decide), by simpa, by simpa⟩

theorem Paired.eq_or_ne {otherOpening otherClosing : Char} (paired : Paired opening closing)
    (other : Paired otherOpening otherClosing) :
    (otherOpening = opening ∧ otherClosing = closing) ∨
      (otherOpening ≠ opening ∧ otherOpening ≠ closing ∧
        otherClosing ≠ opening ∧ otherClosing ≠ closing) := by
  cases paired <;> cases other <;> decide

/-- The search for a closing bracket passes over a nested text. A search for an angle takes the
one of an arrow too, so for that search the text has no arrow. -/
theorem Nested.closingIndex_paired {inside : Bool} {text : List Char} (nested : Nested inside text)
    (paired : Paired opening closing) (plain : opening = '<' → '-' ∉ text) {depth : Nat}
    (positive : 0 < depth) (rest : List Char) :
    closingIndex (some opening) (some closing) depth (text ++ rest) =
      (closingIndex (some opening) (some closing) depth rest).map (· + text.length) := by
  have single {c : Char} (inert : Inert (some opening) (some closing) c) (rest : List Char)
      (depth : Nat) : closingIndex (some opening) (some closing) depth (c :: rest) =
        (closingIndex (some opening) (some closing) depth rest).map (· + 1) :=
    closingIndex_inert (List.forall_mem_singleton.mpr inert) rest
  induction nested generalizing depth rest with
  | nil => simp
  | @char inside c type =>
      have brackets : isTypeChar opening = false ∧ isTypeChar closing = false := by
        cases paired <;> decide
      exact single (inert_of_ne (by simp [isNestedChar, type]) (ne_of_class type brackets.1)
        (ne_of_class type brackets.2)) rest depth
  | blank => exact single (by cases paired <;> simp [Inert, isQuote]) rest depth
  | arrow =>
      have other : opening ≠ '<' := fun angle => plain angle (by simp)
      apply closingIndex_inert
      cases paired with
      | angle => exact absurd rfl other
      | round => simp [Inert, isQuote]
      | square => simp [Inert, isQuote]
  | separator cut =>
      refine single ?_ rest depth
      rcases cut with rfl | rfl <;> cases paired <;> simp [Inert, isQuote]
  | append _ _ first last =>
      have plainFirst := fun angle among => plain angle (List.mem_append_left _ among)
      have plainLast := fun angle among => plain angle (List.mem_append_right _ among)
      rw [List.append_assoc, first plainFirst positive, last plainLast positive, map_add_map_add,
        List.length_append, Nat.add_comm]
  | @group inside otherOpening otherClosing text other _ ih =>
      have inner := @ih fun angle among => plain angle (by simp [among])
      have length : (otherOpening :: (text ++ [otherClosing])).length = 1 + text.length + 1 := by
        simp only [List.length_cons, List.length_append, List.length_nil]
        omega
      rw [List.cons_append, List.append_assoc, List.singleton_append, length]
      rcases paired.eq_or_ne other with ⟨rfl, rfl⟩ | ⟨different, apart, closed, distinct⟩
      · have quotes : isQuote otherOpening = false ∧ isQuote otherClosing = false := by
          cases paired <;> decide
        have slashes : otherOpening ≠ '/' ∧ otherClosing ≠ '/' := by cases paired <;> decide
        have different : some otherClosing ≠ some otherOpening := by cases paired <;> decide
        rw [closingIndex_opening quotes.1 (commentLength_of_ne slashes.1 _),
          inner (Nat.succ_pos depth),
          closingIndex_closing quotes.2 (commentLength_of_ne slashes.2 _) different,
          if_neg (by omega), map_add_map_add, map_add_map_add, Nat.succ_sub_one, Nat.add_assoc,
          Nat.add_comm text.length]
      · have chars : isNestedChar otherOpening = true ∧ isNestedChar otherClosing = true := by
          cases other <;> decide
        rw [single (inert_of_ne chars.1 different apart), inner positive,
          single (inert_of_ne chars.2 closed distinct), map_add_map_add, map_add_map_add,
          Nat.add_assoc, Nat.add_comm text.length]

/-- A group ends at its own bracket. -/
theorem Nested.closingIndex_group {inside : Bool} {text : List Char} (nested : Nested inside text)
    (paired : Paired opening closing) (plain : opening = '<' → '-' ∉ text) (rest : List Char) :
    closingIndex (some opening) (some closing) 1 (text ++ closing :: rest) =
      some text.length := by
  have quote : isQuote closing = false := by cases paired <;> decide
  have slash : closing ≠ '/' := by cases paired <;> decide
  have different : some closing ≠ some opening := by cases paired <;> decide
  rw [nested.closingIndex_paired paired plain Nat.one_pos,
    closingIndex_closing quote (commentLength_of_ne slash _) different, if_pos (Nat.le_refl 1),
    Option.map_some, Nat.zero_add]

theorem Nested.closingIndex_round {inside : Bool} {text : List Char} (nested : Nested inside text)
    {depth : Nat} (positive : 0 < depth) (rest : List Char) :
    closingIndex (some '(') (some ')') depth (text ++ rest) =
      (closingIndex (some '(') (some ')') depth rest).map (· + text.length) :=
  nested.closingIndex_paired .round (fun angle => absurd angle (by decide)) positive rest

end Closing

/-! ## Type annotations -/

section Annotations

variable {c : Char} {depth room : Nat} {rest : List Char}

theorem typeLength_other (slash : c ≠ '/')
    (plain : c ∉ ['(', '[', '<', ')', ']', '>', '\x7b', '\x7d', '=', ';', '\n'])
    (afterDash : Bool) (roomy : 0 < room) :
    typeLength afterDash depth room (c :: rest) =
      typeLength (c = '-') depth (room - 1) rest + 1 := by
  simp only [List.mem_cons, List.not_mem_nil, or_false, not_or] at plain
  have comment := commentLength_of_ne slash rest
  rw [typeLength]
  simp [plain, comment, Nat.ne_of_gt roomy]

theorem typeLength_opening (opening : c = '(' ∨ c = '[' ∨ c = '<') (afterDash : Bool)
    (roomy : 0 < room) :
    typeLength afterDash depth room (c :: rest) =
      typeLength false (depth + 1) (room - 1) rest + 1 := by
  have slash : c ≠ '/' := by rcases opening with rfl | rfl | rfl <;> decide
  have comment := commentLength_of_ne slash rest
  rw [typeLength]
  rcases opening with rfl | rfl | rfl <;> simp [comment, Nat.ne_of_gt roomy]

theorem typeLength_closing (closing : c = ')' ∨ c = ']' ∨ c = '>') (roomy : 0 < room) :
    typeLength false (depth + 1) room (c :: rest) =
      typeLength false depth (room - 1) rest + 1 := by
  have slash : c ≠ '/' := by rcases closing with rfl | rfl | rfl <;> decide
  have comment := commentLength_of_ne slash rest
  rw [typeLength]
  rcases closing with rfl | rfl | rfl <;> simp [comment, Nat.ne_of_gt roomy]

theorem typeLength_arrow (roomy : 2 ≤ room) :
    typeLength false depth room ('-' :: '>' :: rest) =
      typeLength false depth (room - 2) rest + 2 := by
  rw [typeLength_other (by decide) (by decide) false (by omega), typeLength]
  have comment := commentLength_of_ne (c := '>') (by decide) rest
  have left : room - 1 ≠ 0 := by omega
  simp [comment, left, Nat.sub_sub]

end Annotations

/-- A type annotation goes on after a nested text as before it. -/
theorem Nested.typeLength {inside : Bool} {text : List Char} (nested : Nested inside text)
    {depth room : Nat} (deep : inside = true → depth ≠ 0) (roomy : text.length ≤ room)
    (rest : List Char) :
    typeLength false depth room (text ++ rest) =
      typeLength false depth (room - text.length) rest + text.length := by
  induction nested generalizing depth room rest with
  | nil => simp
  | @char inside c type =>
      have ne {d : Char} (other : isTypeChar d = false) := ne_of_class type other
      have dash : (decide (c = '-')) = false := by simpa using ne (d := '-') (by decide)
      have plain : c ∉ ['(', '[', '<', ')', ']', '>', '\x7b', '\x7d', '=', ';', '\n'] := by
        simp only [List.mem_cons, List.not_mem_nil, or_false, not_or]
        refine ⟨?_, ?_, ?_, ?_, ?_, ?_, ?_, ?_, ?_, ?_, ?_⟩ <;> exact ne (by decide)
      rw [List.singleton_append, typeLength_other (ne (by decide)) plain false roomy, dash]
      rfl
  | blank =>
      rw [List.singleton_append, typeLength_other (by decide) (by decide) false roomy]
      rfl
  | arrow => exact typeLength_arrow roomy
  | @separator c cut =>
      have other : c ≠ '/' ∧
          c ∉ ['(', '[', '<', ')', ']', '>', '\x7b', '\x7d', '=', ';', '\n'] ∧ c ≠ '-' := by
        rcases cut with rfl | rfl <;> decide
      rw [List.singleton_append, typeLength_other other.1 other.2.1 false roomy]
      simp [other.2.2]
  | append _ _ first last =>
      rw [List.length_append] at roomy
      rw [List.append_assoc, first deep (by omega), last deep (by omega), List.length_append,
        Nat.sub_sub]
      omega
  | @group inside opening closing text paired _ ih =>
      simp only [List.length_cons, List.length_append, List.length_nil] at roomy
      have brackets : (opening = '(' ∨ opening = '[' ∨ opening = '<') ∧
          (closing = ')' ∨ closing = ']' ∨ closing = '>') := by
        cases paired <;> decide
      rw [List.cons_append, List.append_assoc, typeLength_opening brackets.1 false (by omega),
        ih (fun _ => Nat.succ_ne_zero depth) (by omega), List.singleton_append,
        typeLength_closing brackets.2 (by omega), List.length_cons, List.length_append,
        List.length_singleton]
      have left : room - 1 - text.length - 1 = room - (text.length + 1 + 1) := by omega
      rw [left]
      omega

end DartBindings.Source
