import DartBindings.Proofs.Source.Cuts
import DartBindings.Proofs.Source.Nested

/-!
Code, as default values hold it: literals, groups in brackets and other characters in any order.
The splitter of a parameter list passes over code that follows an equals sign, angles and all,
and nothing in it is a comment as long as no slash stands outside its literals.
-/

set_option autoImplicit false

namespace DartBindings.Source

open Text

/-- A character that neither starts a literal nor opens or closes a group of code. Angles compare
and shift, so they are such characters. -/
def isCodeChar (c : Char) : Bool :=
  !(isQuote c || ['(', ')', '[', ']', '\x7b', '\x7d'].contains c)

def NoQuote (c : Char) : Prop :=
  isQuote c = false

/-- The brackets of code, with their kind. -/
inductive Fenced : Char → Char → Bracket → Prop where
  | round : Fenced '(' ')' .round
  | square : Fenced '[' ']' .square
  | curly : Fenced '\x7b' '\x7d' .curly

/-- Code whose brackets are balanced. No literal follows another one directly, the characters
outside of literals are `allowed`, and commas among them are `inside` brackets only. -/
inductive Code (allowed : Char → Bool) : (inside : Bool) → List Char → Prop where
  | nil {inside} : Code allowed inside []
  | char {inside c rest} : isCodeChar c = true → allowed c = true → (c = ',' → inside = true) →
      Code allowed inside rest → Code allowed inside (c :: rest)
  | literal {inside quote tail rest} : isQuote quote = true → ClosedLiteral (quote :: tail) →
      Fits NoQuote rest → Code allowed inside rest → Code allowed inside (quote :: tail ++ rest)
  | group {inside opening closing kind text rest} : Fenced opening closing kind →
      Code allowed true text → Code allowed inside rest →
      Code allowed inside (opening :: (text ++ closing :: rest))

variable {allowed : Char → Bool} {inside : Bool} {text rest : List Char}

theorem Fenced.noQuote {opening closing : Char} {kind : Bracket}
    (fenced : Fenced opening closing kind) : NoQuote opening ∧ NoQuote closing := by
  cases fenced <;> exact ⟨rfl, rfl⟩

theorem fits_cons {follow : Char → Prop} {c : Char} (first : follow c) (rest : List Char) :
    Fits follow (c :: rest) := by
  intro d member
  cases member
  exact first

theorem Fits.append {follow : Char → Prop} {first last : List Char} (before : Fits follow first)
    (after : Fits follow last) : Fits follow (first ++ last) := by
  cases first with
  | nil => exact after
  | cons c first => exact fits_cons (before c rfl) (first ++ last)

theorem ClosedLiteral.tailLength_of_noQuote {quote : Char} {tail : List Char}
    (closed : ClosedLiteral (quote :: tail)) (fits : Fits NoQuote rest) :
    tailLength quote (tail ++ rest) = tail.length :=
  closed.tailLength_eq (fun _ other => by cases other) fits

/-- A run of characters in front of code. -/
theorem Code.run {run : List Char}
    (chars : ∀ c ∈ run, (isCodeChar c && allowed c && (c != ',' || inside)) = true)
    (code : Code allowed inside rest) : Code allowed inside (run ++ rest) := by
  induction run with
  | nil => exact code
  | cons c run ih =>
      obtain ⟨first, later⟩ := List.forall_mem_cons.mp chars
      simp only [Bool.and_eq_true, Bool.or_eq_true, bne_iff_ne] at first
      exact .char first.1.1 first.1.2 (fun comma => first.2.resolve_left fun other => other comma)
        (ih later)

/-- Without slashes outside of its literals, code does not start with one. -/
theorem Code.first_ne {c : Char} (code : Code allowed inside text) (noSlash : allowed '/' = false)
    (starts : text = c :: rest) : c ≠ '/' := by
  cases code with
  | nil => cases starts
  | char _ fine =>
      cases starts
      exact ne_of_class fine noSlash
  | literal quoted =>
      cases starts
      rintro rfl
      cases quoted
  | group fenced =>
      cases starts
      cases fenced <;> decide

/-- Code without comments keeps its text when comments are taken out. -/
theorem Code.stripComments (code : Code allowed inside text) (noSlash : allowed '/' = false)
    (fits : Fits NoQuote rest) :
    stripComments (text ++ rest) = text ++ stripComments rest := by
  induction code generalizing rest with
  | nil => rfl
  | @char inside c text coded fine _ _ ih =>
      have quote : isQuote c = false := by
        simp only [isCodeChar, Bool.not_eq_true', Bool.or_eq_false_iff] at coded
        exact coded.1
      rw [List.cons_append, stripComments_char quote
        (commentLength_of_ne (ne_of_class fine noSlash) _), ih fits, List.cons_append]
  | @literal inside quote tail text quoted closed apart _ ih =>
      rw [List.append_assoc, List.cons_append, stripComments_literal quoted,
        closed.tailLength_of_noQuote (apart.append fits), List.take_left, List.drop_left, ih fits]
      simp only [List.cons_append, List.append_assoc]
  | @group inside opening closing kind text more fenced _ _ body later =>
      obtain ⟨before, after⟩ := fenced.noQuote
      have slash : opening ≠ '/' ∧ closing ≠ '/' := by cases fenced <;> decide
      rw [List.cons_append, List.append_assoc, List.cons_append,
        stripComments_char before (commentLength_of_ne slash.1 _), body (fits_cons after _),
        stripComments_char after (commentLength_of_ne slash.2 _), later fits]
      simp only [List.cons_append, List.append_assoc]

/-! ## Literals -/

/-- A character that means nothing special in a literal with this mark. -/
def isPlainContent (quote c : Char) : Bool :=
  !([quote, '\\', '$', '\n'].contains c)

theorem contentLength_plain {quote : Char} {contents : List Char}
    (plain : ∀ c ∈ contents, isPlainContent quote c = true) (rest : List Char) :
    contentLength [quote] (contents ++ quote :: rest) = some (contents.length + 1) := by
  induction contents with
  | nil =>
      rw [List.nil_append, contentLength.eq_def]
      simp
  | cons c contents ih =>
      obtain ⟨first, later⟩ := List.forall_mem_cons.mp plain
      simp only [isPlainContent, List.contains_eq_mem, List.mem_cons, List.not_mem_nil, or_false,
        Bool.not_eq_true', decide_eq_false_iff_not, not_or] at first
      obtain ⟨other, escape, dollar, line⟩ := first
      rw [List.cons_append, contentLength.eq_def]
      simp [Ne.symm other, escape, dollar, line, ih later]

/-- A text between two quotes is a closed literal. -/
theorem closedLiteral_plain {quote c : Char} {contents : List Char}
    (plain : ∀ d ∈ c :: contents, isPlainContent quote d = true) :
    ClosedLiteral (quote :: (c :: contents ++ [quote])) := by
  intro rest _
  have other : c ≠ quote := by
    have first := plain c List.mem_cons_self
    rintro rfl
    simp [isPlainContent] at first
  have single : tripleQuote.isPrefixOf (quote :: (c :: contents ++ quote :: rest)) = false := by
    rw [Bool.eq_false_iff]
    intro triple
    simp [tripleQuote] at triple
    exact other (triple.2.1.symm.trans triple.1)
  have length := contentLength_plain plain rest
  simp only [List.cons_append, List.append_assoc, List.nil_append] at single length ⊢
  simp [literalLength, tailLength, single, length]

/-! ## Default values -/

/-- The state of the splitter in a default value, with these brackets open. -/
def SplitState.default (depths : Depths) : SplitState := ⟨depths, true, false⟩

/-- In a default value no angle is a bracket, so a dash means nothing. -/
theorem cutPieces_default (separator : Char) (depths : Depths) (afterDash : Bool)
    (text : List Char) :
    cutPieces [separator] ⟨depths, true, afterDash⟩ text =
      cutPieces [separator] (.default depths) text := by
  cases text with
  | nil => rw [cutPieces, cutPieces]
  | cons c rest =>
      have bracket : SplitState.isBracket ⟨depths, true, afterDash⟩ c =
          (SplitState.default depths).isBracket c := by
        simp only [SplitState.isBracket, SplitState.default, Bool.true_or]
      have step : SplitState.step ⟨depths, true, afterDash⟩ c =
          (SplitState.default depths).step c := by
        simp only [SplitState.step, SplitState.default, Bool.true_or]
      rw [cutPieces, cutPieces, bracket, step]
      rfl

/-- Of the brackets only angles are code of their own. -/
theorem bracket_codeChar {c : Char} (coded : isCodeChar c = true) :
    (Bracket.opened? c = none ∨ Bracket.opened? c = some .angle) ∧
      (Bracket.closed? c = none ∨ Bracket.closed? c = some .angle) := by
  constructor
  · unfold Bracket.opened?
    split <;> first | exact .inl rfl | exact .inr rfl | (revert coded; decide)
  · unfold Bracket.closed?
    split <;> first | exact .inl rfl | exact .inr rfl | (revert coded; decide)

theorem step_codeChar {c : Char} (coded : isCodeChar c = true) (depths : Depths) :
    (SplitState.default depths).step c = ⟨depths, true, c == '-'⟩ := by
  obtain ⟨opened, closed⟩ := bracket_codeChar coded
  rcases opened with opened | opened <;> rcases closed with closed | closed <;>
    simp [SplitState.step, SplitState.default, opened, closed]

theorem Fenced.step {opening closing : Char} {kind : Bracket}
    (fenced : Fenced opening closing kind) (depths : Depths) :
    (SplitState.default depths).step opening = .default (depths.enter kind) ∧
      (SplitState.default depths).step closing = .default (depths.leave kind) := by
  cases fenced <;> exact ⟨rfl, rfl⟩

/-- In a default value the splitter passes over code. -/
theorem Code.cutPieces (code : Code allowed inside text) {depths : Depths}
    (deep : inside = true → depths ≠ .level) (fits : Fits NoQuote rest) :
    cutPieces [','] (.default depths) (text ++ rest) =
      extendFirst text (cutPieces [','] (.default depths) rest) := by
  induction code generalizing depths rest with
  | nil => exact (extendFirst_nil (cutPieces_ne_nil _ _ _)).symm
  | @char inside c text coded _ comma _ ih =>
      have quote : isQuote c = false := by
        simp only [isCodeChar, Bool.not_eq_true', Bool.or_eq_false_iff] at coded
        exact coded.1
      rw [List.cons_append, cutPieces_char quote fun same => deep (comma same),
        step_codeChar coded, cutPieces_default, ih deep fits, extendFirst_extendFirst]
      rfl
  | @literal inside quote tail text quoted closed apart _ ih =>
      have cut : Cut ',' (.default depths) NoQuote (quote :: tail) [] (quote :: tail)
          (.default depths) := Cut.literal quoted closed fun _ other => by cases other
      rw [List.append_assoc, cut.cut _ (apart.append fits), ih deep fits, List.nil_append,
        extendFirst_extendFirst]
  | @group inside opening closing kind text more fenced _ _ body later =>
      obtain ⟨before, after⟩ := fenced.noQuote
      have enter := (fenced.step depths).1
      have comma : opening ≠ ',' ∧ closing ≠ ',' := by cases fenced <;> decide
      have left := (fenced.step (depths.enter kind)).2
      rw [List.cons_append, List.append_assoc, List.cons_append,
        cutPieces_char before fun same => absurd same comma.1, enter,
        body (fun _ => depths.enter_ne_level kind) (fits_cons after _),
        cutPieces_char after fun same => absurd same comma.2, left, depths.leave_enter,
        later deep fits, extendFirst_extendFirst, extendFirst_extendFirst, extendFirst_extendFirst]
      simp only [List.cons_append, List.nil_append, List.append_assoc]

end DartBindings.Source
