import DartBindings.Proofs.Source.Comment
import DartBindings.Proofs.Source.Stretch

/-!
The grammar of literals, with escapes and with code interpolated into them, in which further
literals may stand. A literal of this grammar is skipped exactly, whatever comes before and after
it, as long as no empty literal between double quotes runs into another double quote.
-/

set_option autoImplicit false

namespace DartBindings.Source

open Text

inductive LiteralKind where
  | double
  | triple
  | character
  deriving DecidableEq, Repr

def LiteralKind.quote : LiteralKind → Char
  | .double | .triple => '"'
  | .character => '\''

/-- The mark at both ends of a literal. -/
def LiteralKind.mark : LiteralKind → List Char
  | .double => ['"']
  | .triple => tripleQuote
  | .character => ['\'']

mutual

/-- What stands between the marks of a literal. Three quotes would end a triple literal, and only
a character literal ends with its line and has no code in it. -/
inductive Contents (apart : Prop) : LiteralKind → List Char → Prop where
  | nil {kind} : Contents apart kind []
  | plain {kind c rest} : c ≠ kind.quote → c ≠ '\\' → (c = '$' → rest.head? ≠ some '\x7b') →
      (c = '\n' → kind ≠ .character) → Contents apart kind rest → Contents apart kind (c :: rest)
  | escape {kind c rest} : c ≠ '(' → Contents apart kind rest →
      Contents apart kind ('\\' :: c :: rest)
  | code {kind lead opening closing inside rest} : kind ≠ .character →
      Interpolates lead opening closing → InlineCode apart opening closing inside →
      Contents apart kind rest →
      Contents apart kind (lead :: opening :: (inside ++ closing :: rest))
  | quotes {run rest} : run = ['"'] ∨ run = ['"', '"'] → rest ≠ [] → rest.head? ≠ some '"' →
      Contents apart .triple rest → Contents apart .triple (run ++ rest)

/-- Code between two delimiters. If `apart`, then no empty literal between double quotes stands
directly before another double quote. -/
inductive InlineCode (apart : Prop) : Char → Char → List Char → Prop where
  | nil {opening closing} : InlineCode apart opening closing []
  | char {opening closing c rest} : isQuote c = false → c ≠ opening → c ≠ closing →
      (c = '/' → rest.head? ≠ some '/' ∧ rest.head? ≠ some '*') →
      InlineCode apart opening closing rest → InlineCode apart opening closing (c :: rest)
  | group {opening closing inside rest} : InlineCode apart opening closing inside →
      InlineCode apart opening closing rest →
      InlineCode apart opening closing (opening :: (inside ++ closing :: rest))
  | comment {opening closing inside rest} : CommentRest inside →
      InlineCode apart opening closing rest →
      InlineCode apart opening closing ('/' :: '*' :: (inside ++ rest))
  | literal {opening closing kind inside rest} : Contents apart kind inside →
      (apart → kind = .double → inside = [] → rest.head? ≠ some '"') →
      InlineCode apart opening closing rest →
      InlineCode apart opening closing (kind.mark ++ (inside ++ (kind.mark ++ rest)))

end

/-- A literal as a whole. -/
def IsLiteral (apart : Prop) (literal : List Char) : Prop :=
  ∃ (kind : LiteralKind) (contents : List Char),
    literal = kind.mark ++ (contents ++ kind.mark) ∧ Contents apart kind contents

/-! ## Marks -/

section Mark

variable {kind : LiteralKind} {c : Char} {text rest : List Char}

theorem LiteralKind.mark_eq_cons (kind : LiteralKind) : ∃ more, kind.mark = kind.quote :: more := by
  cases kind with
  | double => exact ⟨[], rfl⟩
  | triple => exact ⟨['"', '"'], rfl⟩
  | character => exact ⟨[], rfl⟩

theorem LiteralKind.isQuote_quote (kind : LiteralKind) : isQuote kind.quote = true := by
  cases kind <;> rfl

theorem LiteralKind.isPrefixOf_cons (other : c ≠ kind.quote) (rest : List Char) :
    kind.mark.isPrefixOf (c :: rest) = false := by
  obtain ⟨more, mark⟩ := kind.mark_eq_cons
  rw [mark, List.isPrefixOf, beq_eq_false_iff_ne.mpr other.symm, Bool.false_and]

/-- The mark ends the literal that it started. -/
theorem contentLength_at_mark (kind : LiteralKind) (rest : List Char) :
    contentLength kind.mark (kind.mark ++ rest) = some kind.mark.length := by
  have starts : kind.mark.isPrefixOf (kind.mark ++ rest) = true := by
    rw [List.isPrefixOf_iff_prefix]
    exact List.prefix_append _ _
  obtain ⟨more, mark⟩ := kind.mark_eq_cons
  rw [mark, List.cons_append] at starts ⊢
  exact contentLength_mark starts

/-- What comes after a part of the contents: more of them, and the mark in any case. -/
theorem LiteralKind.exists_after (kind : LiteralKind) (text rest : List Char) :
    ∃ d after, text ++ (kind.mark ++ rest) = d :: after ∧
      (text.head? = some d ∨ text = [] ∧ d = kind.quote) := by
  cases text with
  | nil =>
      obtain ⟨more, mark⟩ := kind.mark_eq_cons
      exact ⟨kind.quote, more ++ rest, by rw [mark]; rfl, .inr ⟨rfl, rfl⟩⟩
  | cons d text => exact ⟨d, text ++ (kind.mark ++ rest), rfl, .inl rfl⟩

/-- Two quotes that another character follows do not end a triple literal. -/
theorem contentLength_quote (other : rest.head? ≠ some '"') (some : rest ≠ []) :
    contentLength tripleQuote ('"' :: rest) = (contentLength tripleQuote rest).map (· + 1) ∧
      contentLength tripleQuote ('"' :: '"' :: rest) =
        (contentLength tripleQuote rest).map (· + 2) := by
  obtain ⟨d, rest, rfl⟩ := List.exists_cons_of_ne_nil some
  have different : d ≠ '"' := by
    rintro rfl
    exact other rfl
  have noCode (next : Char) : ¬ Interpolates '"' next '\x7d' := nofun
  have one : contentLength tripleQuote ('"' :: d :: rest) =
      (contentLength tripleQuote (d :: rest)).map (· + 1) := by
    apply contentLength_char _ (by decide) (noCode d) (by simp [tripleQuote])
    simp [tripleQuote, List.isPrefixOf, different.symm]
  constructor
  · exact one
  · rw [contentLength_char _ (by decide) (noCode '"') (by simp [tripleQuote]), one,
      map_add_map_add]
    cases rest <;> simp [tripleQuote, List.isPrefixOf, different.symm]

end Mark

/-! ## Reading -/

variable {kind : LiteralKind} {text : List Char} {lead opening closing : Char}

/-- Code that is closed is passed, with what stands around it. -/
theorem contentLength_closed {mark inside more : List Char}
    (goesOn : mark.isPrefixOf (lead :: opening :: (inside ++ closing :: more)) = false)
    (starts : Interpolates lead opening closing)
    (closed : closingIndex (some opening) (some closing) 1 (inside ++ closing :: more) =
      some inside.length) :
    contentLength mark (lead :: opening :: (inside ++ closing :: more)) =
      (contentLength mark more).map (· + (inside.length + 3)) := by
  rw [contentLength_interpolation goesOn starts closed, ← List.drop_drop, List.drop_left,
    List.drop_one, List.tail_cons]

theorem literalLength_single {c : Char} {rest : List Char}
    (single : tripleQuote.isPrefixOf (c :: rest) = false) :
    literalLength (c :: rest) = (contentLength [c] rest).getD 0 + 1 := by
  rw [literalLength, tailLength, if_neg (by simp [single])]

theorem literalLength_triple (rest : List Char) :
    literalLength (tripleQuote ++ rest) = (contentLength tripleQuote rest).getD 0 + 3 := by
  have starts : tripleQuote.isPrefixOf ('"' :: '"' :: '"' :: rest) = true := by
    simp [tripleQuote]
  change literalLength ('"' :: '"' :: '"' :: rest) = _
  rw [literalLength, tailLength, if_pos starts]
  rfl

/-- A literal of which the contents are read as far as its mark is read as a whole. -/
theorem literalLength_of_contents
    (read : ∀ rest, contentLength kind.mark (text ++ (kind.mark ++ rest)) =
      some (text.length + kind.mark.length))
    (starts : kind = .double → text.head? ≠ some '"') {rest : List Char}
    (apart : kind = .double → text = [] → rest.head? ≠ some '"') :
    literalLength (kind.mark ++ (text ++ (kind.mark ++ rest))) =
      (kind.mark ++ (text ++ kind.mark)).length := by
  have length := read rest
  cases kind with
  | double =>
      have single : tripleQuote.isPrefixOf ('"' :: (text ++ '"' :: rest)) = false := by
        rw [Bool.eq_false_iff]
        intro triple
        obtain ⟨-, quotes⟩ := List.cons_prefix_cons.mp (List.isPrefixOf_iff_prefix.mp triple)
        cases text with
        | nil =>
            obtain ⟨-, third⟩ := List.cons_prefix_cons.mp quotes
            obtain ⟨after, rfl⟩ := third
            exact apart rfl rfl rfl
        | cons c text =>
            obtain ⟨rfl, -⟩ := List.cons_prefix_cons.mp quotes
            exact starts rfl rfl
      change contentLength ['"'] (text ++ '"' :: rest) = some (text.length + 1) at length
      change literalLength ('"' :: (text ++ '"' :: rest)) = _
      rw [literalLength_single single, length]
      simp [LiteralKind.mark]
  | triple =>
      change contentLength tripleQuote (text ++ (tripleQuote ++ rest)) =
        some (text.length + 3) at length
      change literalLength (tripleQuote ++ (text ++ (tripleQuote ++ rest))) = _
      rw [literalLength_triple, length]
      simp [LiteralKind.mark, tripleQuote]
  | character =>
      change contentLength ['\''] (text ++ '\'' :: rest) = some (text.length + 1) at length
      change literalLength ('\'' :: (text ++ '\'' :: rest)) = _
      rw [literalLength_single rfl, length]
      simp [LiteralKind.mark]

theorem Contents.head?_ne_quote {apart : Prop} (contents : Contents apart .double text) :
    text.head? ≠ some '"' := by
  cases contents with
  | nil => nofun
  | plain other => exact fun same => other (Option.some.inj same)
  | escape => nofun
  | code _ starts => cases starts <;> nofun

/-! ## Interpolated code -/

theorem Interpolates.plain (starts : Interpolates lead opening closing) :
    (isQuote opening = false ∧ opening ≠ '/') ∧ (isQuote closing = false ∧ closing ≠ '/') ∧
      some closing ≠ some opening := by
  cases starts <;> decide

/-- A slash at the end of code makes no comment with the delimiter. -/
theorem commentLength_before_delimiter (starts : Interpolates lead opening closing) {c : Char}
    (slash : c = '/') (apart : text.head? ≠ some '/' ∧ text.head? ≠ some '*') (rest : List Char) :
    commentLength (c :: (text ++ closing :: rest)) = 0 := by
  subst slash
  cases text with
  | nil => cases starts <;> rfl
  | cons d text =>
      rw [List.cons_append, commentLength_cons_cons, if_neg, if_neg]
      · rintro ⟨-, rfl⟩
        exact apart.2 rfl
      · rintro ⟨-, rfl⟩
        exact apart.1 rfl

theorem Interpolates.head?_ne_quote (starts : Interpolates lead opening closing)
    (apart : text.head? ≠ some '"') (rest : List Char) :
    (text ++ closing :: rest).head? ≠ some '"' := by
  cases text with
  | nil => cases starts <;> nofun
  | cons c text => exact apart

/-- The search passes over a literal. -/
theorem closingIndex_of_literal (first last : Option Char) (depth : Nat) (kind : LiteralKind)
    {rest : List Char}
    (length : literalLength (kind.mark ++ (text ++ (kind.mark ++ rest))) =
      (kind.mark ++ (text ++ kind.mark)).length) :
    closingIndex first last depth (kind.mark ++ (text ++ (kind.mark ++ rest))) =
      (closingIndex first last depth rest).map (· + (kind.mark ++ (text ++ kind.mark)).length) := by
  obtain ⟨more, mark⟩ := kind.mark_eq_cons
  have whole : kind.mark ++ (text ++ (kind.mark ++ rest)) =
      kind.quote :: (more ++ (text ++ kind.mark) ++ rest) := by
    rw [mark]
    simp
  have size : (kind.mark ++ (text ++ kind.mark)).length =
      (more ++ (text ++ kind.mark)).length + 1 := by
    rw [mark]
    simp
  rw [whole, literalLength, size] at length
  rw [whole, closingIndex_literal kind.isQuote_quote, Nat.succ.inj length, List.drop_left, size]

mutual

/-- The contents of a literal are read as far as its mark. -/
theorem Contents.contentLength {kind : LiteralKind} {text : List Char} :
    Contents True kind text → ∀ rest, Source.contentLength kind.mark (text ++ (kind.mark ++ rest)) =
      some (text.length + kind.mark.length)
  | .nil, rest => by
      rw [List.nil_append, contentLength_at_mark, List.length_nil, Nat.zero_add]
  | @Contents.plain _ kind c text other escape dollar line contents, rest => by
      obtain ⟨d, after, more, first⟩ := kind.exists_after text rest
      have noCode : ¬ Interpolates c d '\x7d' := by
        intro starts
        cases starts
        rcases first with next | ⟨-, mark⟩
        · exact dollar rfl next
        · cases kind <;> cases mark
      have noBreak : ¬ (c = '\n' ∧ kind.mark = ['\'']) := by
        rintro ⟨same, mark⟩
        have notCharacter := line same
        cases kind with
        | double | triple => cases mark
        | character => exact notCharacter rfl
      have later := contents.contentLength rest
      rw [more] at later
      rw [List.cons_append, more,
        contentLength_char (kind.isPrefixOf_cons other _) escape noCode noBreak, later,
        Option.map_some, List.length_cons]
      congr 1
      omega
  | @Contents.escape _ kind c text round contents, rest => by
      have goesOn : '\\' ≠ kind.quote := by cases kind <;> decide
      rw [List.cons_append, List.cons_append,
        contentLength_escape (kind.isPrefixOf_cons goesOn _) round, contents.contentLength rest,
        Option.map_some, List.length_cons, List.length_cons]
      congr 1
      omega
  | @Contents.code _ kind lead opening closing inside text _ starts code contents, rest => by
      have goesOn : lead ≠ kind.quote := by
        cases starts <;> cases kind <;> decide
      have closed := code.closingIndex starts Nat.one_pos (text ++ (kind.mark ++ rest))
      have ends : Source.closingIndex (some opening) (some closing) 1
          (closing :: (text ++ (kind.mark ++ rest))) = some 0 := by
        cases starts with
        | round => exact closingIndex_closing rfl (commentLength_of_ne (by decide) _) (by decide)
        | curly => exact closingIndex_closing rfl (commentLength_of_ne (by decide) _) (by decide)
      rw [ends, Option.map_some, Nat.zero_add] at closed
      rw [List.cons_append, List.cons_append, List.append_assoc, List.cons_append,
        contentLength_closed (kind.isPrefixOf_cons goesOn _) starts closed,
        contents.contentLength rest, Option.map_some]
      simp only [List.length_cons, List.length_append]
      congr 1
      omega
  | @Contents.quotes _ run text quotes more other contents, rest => by
      have later := contents.contentLength rest
      have first : (text ++ (LiteralKind.triple.mark ++ rest)).head? ≠ some '"' := by
        obtain ⟨c, text, rfl⟩ := List.exists_cons_of_ne_nil more
        exact other
      have some : text ++ (LiteralKind.triple.mark ++ rest) ≠ [] :=
        List.append_ne_nil_of_left_ne_nil more _
      obtain ⟨one, two⟩ := contentLength_quote first some
      rcases quotes with rfl | rfl
      · change Source.contentLength tripleQuote ('"' :: (text ++ _)) = _
        rw [one]
        change (Source.contentLength LiteralKind.triple.mark _).map _ = _
        rw [later, Option.map_some, List.length_append, List.length_singleton]
        congr 1
        omega
      · change Source.contentLength tripleQuote ('"' :: '"' :: (text ++ _)) = _
        rw [two]
        change (Source.contentLength LiteralKind.triple.mark _).map _ = _
        rw [later, Option.map_some, List.length_append]
        congr 1
        simp only [List.length_cons, List.length_nil]
        omega

/-- The search for the delimiter that ends interpolated code passes over the code. -/
theorem InlineCode.closingIndex {opening closing : Char} {text : List Char} :
    InlineCode True opening closing text → ∀ {lead depth}, Interpolates lead opening closing →
      0 < depth → ∀ rest, Source.closingIndex (some opening) (some closing) depth
        (text ++ closing :: rest) = (Source.closingIndex (some opening) (some closing) depth
          (closing :: rest)).map (· + text.length)
  | .nil, _, _, _, _, rest => by simp
  | @InlineCode.char _ opening closing c text quote notOpening notClosing slash code,
      lead, depth, starts, positive, rest => by
      have comment : commentLength (c :: (text ++ closing :: rest)) = 0 := by
        by_cases same : c = '/'
        · exact commentLength_before_delimiter starts same (slash same) rest
        · exact commentLength_of_ne same _
      rw [List.cons_append, closingIndex_other quote comment (by simpa using notOpening)
        (by simpa using notClosing), code.closingIndex starts positive, map_add_map_add,
        List.length_cons]
  | @InlineCode.group _ opening closing inside text group code, lead, depth, starts, positive,
      rest => by
      obtain ⟨plainOpening, plainClosing, different⟩ := starts.plain
      have inner := group.closingIndex starts (Nat.succ_pos depth) (text ++ closing :: rest)
      have ends : Source.closingIndex (some opening) (some closing) (depth + 1)
          (closing :: (text ++ closing :: rest)) = _ :=
        closingIndex_closing plainClosing.1 (commentLength_of_ne plainClosing.2 _) different
      rw [if_neg (by omega), Nat.add_sub_cancel, code.closingIndex starts positive rest] at ends
      rw [List.cons_append, List.append_assoc, List.cons_append,
        closingIndex_opening plainOpening.1 (commentLength_of_ne plainOpening.2 _), inner, ends,
        map_add_map_add, map_add_map_add, map_add_map_add]
      have size : text.length + (1 + (inside.length + 1)) =
          (opening :: (inside ++ closing :: text)).length := by
        simp only [List.length_cons, List.length_append]
        omega
      rw [size]
  | @InlineCode.comment _ opening closing inside text closed code, lead, depth, starts, positive,
      rest => by
      have comment : commentLength ('/' :: '*' :: (inside ++ (text ++ closing :: rest))) =
          inside.length + 1 + 1 := by
        rw [commentLength, closed.blockLength 0, if_pos rfl, Nat.zero_add]
      obtain ⟨first, last⟩ := starts.significant
      rw [List.cons_append, List.cons_append, List.append_assoc,
        closingIndex_comment first.solid last.solid comment, List.drop_succ_cons, List.drop_left,
        code.closingIndex starts positive rest, map_add_map_add]
      have size : text.length + (inside.length + 1 + 1) =
          ('/' :: '*' :: (inside ++ text)).length := by
        simp only [List.length_cons, List.length_append]
        omega
      rw [size]
  | @InlineCode.literal _ opening closing kind inside text contents apart code, lead, depth, starts,
      positive, rest => by
      have length :
          literalLength (kind.mark ++ (inside ++ (kind.mark ++ (text ++ closing :: rest)))) =
            (kind.mark ++ (inside ++ kind.mark)).length := by
        apply literalLength_of_contents contents.contentLength
        · rintro rfl
          exact contents.head?_ne_quote
        · intro double empty
          exact starts.head?_ne_quote (apart trivial double empty) rest
      have passed := closingIndex_of_literal (some opening) (some closing) depth kind length
      rw [List.append_assoc, List.append_assoc, List.append_assoc, passed,
        code.closingIndex starts positive rest, map_add_map_add]
      have size : text.length + (kind.mark ++ (inside ++ kind.mark)).length =
          (kind.mark ++ (inside ++ (kind.mark ++ text))).length := by
        simp only [List.length_append]
        omega
      rw [size]

end

/-! ## Skipping -/

/-- A literal is skipped exactly, unless it is empty and another double quote follows it. -/
theorem skipLiteral_exact {literal : List Char} (written : IsLiteral True literal)
    (before : List Char) {after : List Char}
    (apart : literal = ['"', '"'] → after.head? ≠ some '"') :
    skipLiteral (before ++ (literal ++ after)) before.length =
      before.length + literal.length := by
  obtain ⟨kind, text, rfl, contents⟩ := written
  have length : literalLength (kind.mark ++ (text ++ (kind.mark ++ after))) =
      (kind.mark ++ (text ++ kind.mark)).length := by
    apply literalLength_of_contents contents.contentLength
    · rintro rfl
      exact contents.head?_ne_quote
    · rintro rfl rfl
      exact apart rfl
  rw [skipLiteral, List.drop_left, List.append_assoc, List.append_assoc, length]

/-- Code in braces holds a group with a literal in it, a comment, and a triple literal. -/
theorem skipLiteral_exact_greeting :
    let literal := "\"$\x7bm\x7b\"\\\"\"\x7d/*\x7d*/\"\"\"a\"\"b\"\"\"\x7d\"".toList
    IsLiteral True literal ∧ literal ≠ ['"', '"'] ∧
      skipLiteral ("x = ".toList ++ (literal ++ "\" z".toList)) 4 = 4 + 27 := by
  intro literal
  have group : InlineCode True '\x7b' '\x7d' "\"\\\"\"".toList := by
    have contents : Contents True .double ['\\', '"'] := .escape (by decide) .nil
    exact .literal contents nofun .nil
  have comment : CommentRest "\x7d*/".toList := by
    have plain : ¬ StartsMark ['\x7d', '*', '/'] := by simp [startsMark_cons_cons]
    exact .char plain .closing
  have triple : Contents True .triple "a\"\"b".toList := by
    have last : Contents True .triple ['b'] :=
      .plain (by decide) (by decide) nofun nofun .nil
    have run : Contents True .triple "\"\"b".toList := .quotes (.inr rfl) nofun nofun last
    exact .plain (by decide) (by decide) nofun nofun run
  have inside : InlineCode True '\x7b' '\x7d'
      "m\x7b\"\\\"\"\x7d/*\x7d*/\"\"\"a\"\"b\"\"\"".toList := by
    have last : InlineCode True '\x7b' '\x7d' "\"\"\"a\"\"b\"\"\"".toList :=
      .literal triple nofun .nil
    have word : 'm' ≠ '/' := by decide
    exact .char rfl (by decide) (by decide) (fun slash => absurd slash word)
      (.group group (.comment comment last))
  have written : IsLiteral True literal :=
    ⟨.double, _, rfl, .code nofun .curly inside .nil⟩
  have apart : literal ≠ ['"', '"'] := by decide
  exact ⟨written, apart,
    skipLiteral_exact written "x = ".toList fun same => absurd same apart⟩

/-- An empty literal before a quote is read as the mark of a triple literal. -/
theorem skipLiteral_runs_on :
    let literal := "\"$\x7b\"\"\"x\"\x7d\"".toList
    IsLiteral False literal ∧ literal ≠ ['"', '"'] ∧
      skipLiteral (literal ++ " z".toList) 0 ≠ literal.length := by
  intro literal
  have word : Contents False .double ['x'] := .plain (by decide) (by decide) nofun nofun .nil
  have last : InlineCode False '\x7b' '\x7d' "\"x\"".toList := .literal word nofun .nil
  have inside : InlineCode False '\x7b' '\x7d' "\"\"\"x\"".toList :=
    @InlineCode.literal False _ _ .double _ _ .nil nofun last
  refine ⟨⟨.double, _, rfl, .code nofun .curly inside .nil⟩, ?_, ?_⟩
  · decide
  · decide +kernel

end DartBindings.Source
