import DartBindings.Proofs.Source.Bare
import DartBindings.Proofs.Source.Pieces

/-!
Pieces of a text that starts with whole tokens. The last cut among the tokens leaves a piece that
starts with whole tokens too, and goes on into the rest of the text.
-/

set_option autoImplicit false

namespace DartBindings.Source

open Text

/-- A cut of a text, whatever of it comes later: the pieces that end in the known part, and what
the next piece starts with. -/
structure Cut (separator : Char) (state : SplitState) (follow : Char → Prop) (text : List Char)
    (pieces : List (List Char)) (last : List Char) (after : SplitState) : Prop where
  cut : ∀ rest, Fits follow rest → cutPieces [separator] state (text ++ rest) =
    pieces ++ extendFirst last (cutPieces [separator] after rest)
  /-- What comes later does not complete an arrow. -/
  quiet : after.afterDash = true → ¬ follow '>'
  suffix : last <:+ text

section Cuts

variable {separator : Char} {state : SplitState} {follow : Char → Prop} {text rest : List Char}
  {spelling : Spelling} {spellings : List Spelling}

theorem extendFirst_extendFirst (first second : List Char) (pieces : List (List Char)) :
    extendFirst first (extendFirst second pieces) = extendFirst (first ++ second) pieces := by
  cases pieces with
  | nil => rfl
  | cons piece pieces => simp only [extendFirst, List.append_assoc]

theorem class_of_isSeparator {p : Char → Bool} (proper : isSeparator separator = true)
    (others : p ',' = false ∧ p ':' = false ∧ p '=' = false) : p separator = false := by
  rcases eq_of_isSeparator proper with rfl | rfl | rfl
  · exact others.1
  · exact others.2.1
  · exact others.2.2

theorem cutPieces_run {run : List Char} (uncut : ∀ c ∈ run, isQuote c = false ∧ c ≠ separator)
    (rest : List Char) : cutPieces [separator] state (run ++ rest) =
      extendFirst run (cutPieces [separator] (run.foldl SplitState.step state) rest) := by
  induction run generalizing state with
  | nil => exact (extendFirst_nil (cutPieces_ne_nil _ _ _)).symm
  | cons c run ih =>
      obtain ⟨quote, other⟩ := uncut c List.mem_cons_self
      rw [List.cons_append, cutPieces_char quote fun same => absurd same other,
        ih fun d member => uncut d (List.mem_cons_of_mem c member), extendFirst_extendFirst]
      rfl

theorem afterDash_foldl_step {run : List Char} (some : run ≠ []) :
    (run.foldl SplitState.step state).afterDash = endsWithDash run := by
  have split := List.dropLast_concat_getLast some
  rw [← split, List.foldl_append, endsWithDash, List.getLast?_concat]
  rfl

/-- A text that is not cut. -/
theorem Cut.of_run {run : List Char} (some : run ≠ [])
    (uncut : ∀ c ∈ run, isQuote c = false ∧ c ≠ separator)
    (quiet : endsWithDash run = true → ¬ follow '>') :
    Cut separator state follow run [] run (run.foldl SplitState.step state) where
  cut rest _ := cutPieces_run uncut rest
  quiet dash := quiet (by rwa [afterDash_foldl_step some] at dash)
  suffix := List.suffix_refl _

theorem endsWithDash_of_mem {p : Char → Bool} {run : List Char} (chars : ∀ c ∈ run, p c = true)
    (dash : p '-' = false) : endsWithDash run = false := by
  rw [endsWithDash, beq_eq_false_iff_ne]
  intro last
  rw [chars '-' (List.mem_of_getLast? last)] at dash
  cases dash

theorem Cut.of_class {p : Char → Bool} (proper : isSeparator separator = true) {run : List Char}
    (some : run ≠ []) (chars : ∀ c ∈ run, p c = true)
    (others : p ',' = false ∧ p ':' = false ∧ p '=' = false)
    (quotes : p '"' = false ∧ p '\'' = false) (dash : p '-' = false) :
    Cut separator state follow run [] run (run.foldl SplitState.step state) := by
  refine Cut.of_run some (fun c member => ?_) fun ends => ?_
  · exact ⟨isQuote_of_class (chars c member) quotes.1 quotes.2,
      ne_of_class (chars c member) (class_of_isSeparator proper others)⟩
  · rw [endsWithDash_of_mem chars dash] at ends
    cases ends

theorem cutPieces_literal {c : Char} (quote : isQuote c = true) (rest : List Char) :
    cutPieces [separator] state (c :: rest) =
      extendFirst (c :: rest.take (tailLength c rest))
        (cutPieces [separator]
          { state with afterDash := endsWithDash (c :: rest.take (tailLength c rest)) }
          (rest.drop (tailLength c rest))) := by
  rw [cutPieces, if_pos quote]

theorem Cut.literal {mark : Char} {tail : List Char} (quoted : isQuote mark = true)
    (closed : ClosedLiteral (mark :: tail)) (apart : mark :: tail = ['"', '"'] → ¬ follow '"') :
    Cut separator state follow (mark :: tail) [] (mark :: tail)
      { state with afterDash := false } where
  cut rest fits := by
    have noDash : endsWithDash (mark :: tail) = false := by
      obtain ⟨front, rfl⟩ := closed.ends
      rw [endsWithDash, ← List.cons_append, List.getLast?_concat]
      exact beq_eq_false_iff_ne.mpr fun same =>
        ne_of_class quoted (by decide) (Option.some.inj same)
    rw [List.cons_append, cutPieces_literal quoted, closed.tailLength_eq apart fits, List.take_left,
      List.drop_left, noDash, List.nil_append]
  quiet dash := by cases dash
  suffix := List.suffix_refl _

theorem isBracket_of_isSeparator (proper : isSeparator separator = true) (state : SplitState) :
    state.isBracket separator = false := by
  rcases eq_of_isSeparator proper with rfl | rfl | rfl <;> rfl

/-- At the top level a separator ends a piece. -/
theorem Cut.atSeparator (proper : isSeparator separator = true) (level : state.depths = .level) :
    Cut separator state follow [separator] [[]] [] ⟨.level, false, false⟩ where
  cut rest _ := by
    have noDash : (separator == '-') = false := by
      rcases eq_of_isSeparator proper with rfl | rfl | rfl <;> rfl
    rw [List.singleton_append, cutPieces_separator (class_of_isSeparator proper (by decide))
      (isBracket_of_isSeparator proper state) level, noDash,
      extendFirst_nil (cutPieces_ne_nil _ _ _), List.singleton_append]
  quiet dash := by cases dash
  suffix := List.nil_suffix

theorem Cut.colons (state : SplitState) (level : state.depths = .level) :
    Cut ':' state follow [':', ':'] [[], []] [] ⟨.level, false, false⟩ where
  cut rest fits := by
    have first := (@Cut.atSeparator ':' state (fun _ => True) rfl level).cut (':' :: rest)
      fun _ _ => trivial
    have second := (@Cut.atSeparator ':' ⟨.level, false, false⟩ follow rfl rfl).cut rest fits
    rw [List.singleton_append] at first second
    rw [List.cons_append, List.singleton_append, first, second]
    rfl
  quiet dash := by cases dash
  suffix := List.nil_suffix

/-- A character that is not cut off. -/
theorem Cut.char {c : Char} (quote : isQuote c = false)
    (uncut : c = separator → state.depths ≠ .level) (quiet : c = '-' → ¬ follow '>') :
    Cut separator state follow [c] [] [c] (state.step c) where
  cut _ _ := cutPieces_char quote uncut
  quiet dash := quiet (eq_of_beq dash)
  suffix := List.suffix_refl _

section Append

variable {run last : List Char} {pieces : List (List Char)} {middle after : SplitState}

theorem Cut.append_kept (first : Cut separator state (First follow text) run pieces last middle)
    (second : Cut separator middle follow text [] text after) :
    Cut separator state follow (run ++ text) pieces (last ++ text) after where
  cut rest fits := by
    rw [List.append_assoc, first.cut _ (fits.first text), second.cut rest fits, List.nil_append,
      extendFirst_extendFirst]
  quiet := second.quiet
  suffix := by
    obtain ⟨front, rfl⟩ := first.suffix
    exact ⟨front, (List.append_assoc _ _ _).symm⟩

theorem Cut.append_cut {piece next : List Char} {more : List (List Char)}
    (first : Cut separator state (First follow text) run pieces last middle)
    (second : Cut separator middle follow text (piece :: more) next after) :
    Cut separator state follow (run ++ text) (pieces ++ (last ++ piece) :: more) next after where
  cut rest fits := by
    rw [List.append_assoc, first.cut _ (fits.first text), second.cut rest fits,
      List.cons_append, extendFirst, List.append_assoc, List.cons_append]
  quiet := second.quiet
  suffix := second.suffix.trans (List.suffix_append run text)

end Append

theorem depths_step_colon (state : SplitState) : (state.step ':').depths = state.depths := by
  simp [SplitState.step, Bracket.opened?, Bracket.closed?]

/-- How one token is cut: it stays whole, or it is made of separators. -/
theorem Lexed.cut (lexed : Lexed follow text spelling) (proper : isSeparator separator = true)
    (state : SplitState) :
    ∃ pieces last after, Cut separator state follow text pieces last after ∧
      (pieces = [] ∧ last = text ∨ pieces ≠ [] ∧ last = []) := by
  have kept {after : SplitState} (cut : Cut separator state follow text [] text after) :
      ∃ pieces last after, Cut separator state follow text pieces last after ∧
        (pieces = [] ∧ last = text ∨ pieces ≠ [] ∧ last = []) :=
    ⟨[], text, after, cut, .inl ⟨rfl, rfl⟩⟩
  cases lexed with
  | literal quoted closed apart => exact kept (Cut.literal quoted closed apart)
  | word named =>
      exact kept (Cut.of_class proper named.nonempty named.chars (by decide) (by decide)
        (by decide))
  | @marker word named =>
      have chars : ∀ c ∈ '@' :: word, (c == '@' || isWordChar c) = true := by
        simpa using fun c inside => .inr (named.chars c inside)
      exact kept (Cut.of_class proper (List.cons_ne_nil '@' word) chars (by decide)
        (by decide) (by decide))
  | @quoted name plain =>
      refine kept (Cut.of_run (List.cons_ne_nil _ _) (fun c member => ?_) fun ends => ?_)
      · have mark : isQuote backtick = false ∧ backtick ≠ separator :=
          ⟨by decide, fun same => absurd (same ▸ proper) (by decide)⟩
        simp only [List.mem_cons, List.mem_append, List.not_mem_nil, or_false] at member
        rcases member with rfl | inside | rfl
        · exact mark
        · exact ⟨isQuote_of_class (plain c inside) (by decide) (by decide),
            ne_of_class (plain c inside) (class_of_isSeparator proper (by decide))⟩
        · exact mark
      · rw [endsWithDash, ← List.cons_append, List.getLast?_concat] at ends
        exact absurd ends (by decide)
  | arrow =>
      refine kept (Cut.of_run (List.cons_ne_nil _ _) (fun c member => ?_) fun ends => ?_)
      · simp only [List.mem_cons, List.not_mem_nil, or_false] at member
        rcases member with rfl | rfl <;>
          rcases eq_of_isSeparator proper with rfl | rfl | rfl <;> decide
      · cases ends
  | colons =>
      by_cases cut : ':' = separator ∧ state.depths = .level
      · obtain ⟨rfl, level⟩ := cut
        exact ⟨_, _, _, Cut.colons state level, .inr ⟨List.cons_ne_nil _ _, rfl⟩⟩
      · have uncut (same : ':' = separator) : state.depths ≠ .level :=
          fun level => cut ⟨same, level⟩
        have first : Cut separator state (First follow [':']) [':'] [] [':'] (state.step ':') :=
          Cut.char (by decide) uncut fun same => absurd same (by decide)
        have second : Cut separator (state.step ':') follow [':'] [] [':'] _ :=
          Cut.char (by decide) (by rwa [depths_step_colon]) fun same => absurd same (by decide)
        exact kept (first.append_kept second)
  | @symbol c symbol apart =>
      simp only [isSymbolChar, Bool.not_eq_true', Bool.or_eq_false_iff] at symbol
      by_cases cut : c = separator ∧ state.depths = .level
      · obtain ⟨rfl, level⟩ := cut
        exact ⟨_, _, _, Cut.atSeparator proper level, .inr ⟨List.cons_ne_nil _ _, rfl⟩⟩
      · refine kept (Cut.char symbol.1.1.2 (fun same level => cut ⟨same, level⟩) ?_)
        rintro rfl follows
        exact absurd (apart '>' follows) (by decide)

/-- How whole tokens are cut. What comes after the last cut is made of whole tokens. -/
theorem Bare.cut (bare : Bare follow text spellings) (proper : isSeparator separator = true)
    (quiet : state.afterDash = true → ¬ First follow text '>') :
    ∃ pieces last after, Cut separator state follow text pieces last after ∧
      (pieces = [] → last = text) ∧ ∃ spellings, Bare follow last spellings := by
  induction bare generalizing state with
  | nil =>
      refine ⟨[], [], state, ⟨fun rest _ => ?_, quiet, List.suffix_refl []⟩, fun _ => rfl, [], .nil⟩
      exact (extendFirst_nil (cutPieces_ne_nil _ _ _)).symm
  | @blank c text spellings blank later ih =>
      have other : c ≠ '-' := ne_of_class blank (by decide)
      have noSeparator : c ≠ separator :=
        ne_of_class blank (class_of_isSeparator proper (by decide))
      have first : Cut separator state (First follow text) [c] [] [c] (state.step c) :=
        Cut.char (isQuote_of_isBlank blank) (fun same => absurd same noSeparator)
          fun same => absurd same other
      obtain ⟨pieces, last, after, cut, whole, _, bare⟩ := ih first.quiet
      cases pieces with
      | nil =>
          obtain rfl := whole rfl
          exact ⟨[], c :: last, after, first.append_kept cut, fun _ => rfl, _, .blank blank bare⟩
      | cons piece pieces => exact ⟨_, last, after, first.append_cut cut, nofun, _, bare⟩
  | @token token text spelling spellings lexed later ih =>
      obtain ⟨before, start, middle, first, kind⟩ := lexed.cut proper state
      obtain ⟨pieces, last, after, cut, whole, _, bare⟩ := ih first.quiet
      cases pieces with
      | nil =>
          obtain rfl := whole rfl
          rcases kind with ⟨rfl, rfl⟩ | ⟨some, rfl⟩
          · exact ⟨[], _, after, first.append_kept cut, fun _ => rfl, _, .token lexed bare⟩
          · exact ⟨before, _, after, first.append_kept cut, fun none => absurd none some, _, bare⟩
      | cons piece pieces =>
          refine ⟨_, last, after, first.append_cut cut, fun none => ?_, _, bare⟩
          cases List.append_eq_nil_iff.mp none |>.2

/-! ## Blanks after whole tokens -/

/-- A dash matters only before an angle. -/
theorem cutPieces_afterDash (noAngle : state.afterDash = true → text.head? ≠ some '>') :
    cutPieces [separator] state text =
      cutPieces [separator] { state with afterDash := false } text := by
  cases dash : state.afterDash with
  | false => rw [← dash]
  | true =>
      cases text with
      | nil => rw [cutPieces, cutPieces]
      | cons c rest =>
          have other : c ≠ '>' := by simpa using noAngle dash
          have bracket : state.isBracket c =
              { state with afterDash := false }.isBracket c := by
            unfold SplitState.isBracket
            split <;> first | rfl | skip
            rename_i closed
            unfold Bracket.closed? at closed
            split at closed <;> simp_all
          have step : state.step c = { state with afterDash := false }.step c := by
            simp [SplitState.step, other]
          rw [cutPieces, cutPieces, bracket, step]

theorem step_of_isBlank {c : Char} (blank : isBlank c = true) :
    state.step c = { state with afterDash := false } := by
  have equals : c ≠ '=' := ne_of_class blank (by decide)
  have dash : c ≠ '-' := ne_of_class blank (by decide)
  calc
    state.step c = ⟨(state.step c).depths, state.inDefault || (c == '=' && state.depths == .level),
        c == '-'⟩ := rfl
    _ = { state with afterDash := false } := by
        rw [depths_step_of_isBlank blank]
        simp [equals, dash]

theorem foldl_step_of_isBlank {blanks : List Char} (blank : ∀ c ∈ blanks, isBlank c = true)
    (some : blanks ≠ []) :
    blanks.foldl SplitState.step state = { state with afterDash := false } := by
  induction blanks generalizing state with
  | nil => exact absurd rfl some
  | cons c blanks ih =>
      rw [List.foldl_cons, step_of_isBlank (blank c List.mem_cons_self)]
      cases blanks with
      | nil => rfl
      | cons d blanks =>
          exact ih (fun e member => blank e (List.mem_cons_of_mem c member)) (List.cons_ne_nil d _)

theorem cutPieces_blanks {blanks : List Char} (blank : ∀ c ∈ blanks, isBlank c = true)
    (solid : isBlank separator = false) (ready : state.afterDash = false) (rest : List Char) :
    cutPieces [separator] state (blanks ++ rest) =
      extendFirst blanks (cutPieces [separator] state rest) := by
  have same : { state with afterDash := false } = state := by
    cases state
    simp_all
  cases blanks with
  | nil => exact (extendFirst_nil (cutPieces_ne_nil _ _ _)).symm
  | cons c blanks =>
      rw [cutPieces_run, foldl_step_of_isBlank blank (List.cons_ne_nil c blanks), same]
      intro d member
      exact ⟨isQuote_of_isBlank (blank d member), ne_of_class (blank d member) solid⟩

/-- How many blanks come after whole tokens makes no difference to the cuts. -/
theorem Cut.gap {pieces : List (List Char)} {last gap : List Char} {after : SplitState}
    (cut : Cut separator state follow text pieces last after)
    (proper : isSeparator separator = true)
    (blank : ∀ c ∈ gap, isBlank c = true) (fits : Fits follow (gap ++ rest)) :
    cutPieces [separator] state (text ++ (gap ++ rest)) =
      pieces ++ extendFirst (last ++ gap)
        (cutPieces [separator] { after with afterDash := false } rest) := by
  rw [cut.cut _ fits, ← extendFirst_extendFirst]
  congr 2
  cases gap with
  | nil =>
      rw [extendFirst_nil (cutPieces_ne_nil _ _ _)]
      exact cutPieces_afterDash fun dash angle => cut.quiet dash (fits '>' angle)
  | cons c gap =>
      rw [cutPieces_run, foldl_step_of_isBlank blank (List.cons_ne_nil c gap)]
      intro d member
      exact ⟨isQuote_of_isBlank (blank d member),
        ne_of_class (blank d member) (class_of_isSeparator proper (by decide))⟩

theorem endsWord_of_isSeparator {separator : Char} (proper : isSeparator separator = true)
    {after : List Char} (ends : after = [] ∨ after.head? = some separator) : EndsWord after := by
  rintro c rest rfl
  rcases ends with none | first
  · cases none
  · cases first
    exact class_of_isSeparator proper (by decide)

/-- What comes before the first cut. -/
theorem cutPieces_first (separator : Char) (state : SplitState) (text : List Char) :
    ∃ piece pieces after, cutPieces [separator] state text = piece :: pieces ∧
      text = piece ++ after ∧ (after = [] ∨ after.head? = some separator) := by
  obtain ⟨piece, pieces, cut⟩ :=
    List.exists_cons_of_ne_nil (cutPieces_ne_nil [separator] state text)
  have whole := intercalate_cutPieces (List.cons_ne_nil separator []) state text
  rw [cut] at whole
  cases pieces with
  | nil => exact ⟨piece, [], [], cut, by simpa using whole.symm, .inl rfl⟩
  | cons next pieces =>
      refine ⟨piece, next :: pieces, separator :: [separator].intercalate (next :: pieces), cut,
        ?_, .inr rfl⟩
      rw [← whole, List.intercalate_cons_cons]
      simp

end Cuts

end DartBindings.Source
