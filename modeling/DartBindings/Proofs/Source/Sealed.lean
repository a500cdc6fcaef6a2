import DartBindings.Proofs.Source.Code

/-!
Texts that the splitter of a parameter list cuts at a comma before it could cut them at a colon or
an equals sign. A piece of such a text declares no type and no default value.
-/

set_option autoImplicit false

namespace DartBindings.Source

open Text

/-- From this state of the splitter on, no colon and no equals sign stands outside of brackets
before the first comma that does. There are no literals up to there. -/
inductive Sealed : SplitState → List Char → Prop where
  | nil {state} : Sealed state []
  | comma {state rest} : state.depths = .level → Sealed state (',' :: rest)
  | char {state c rest} : isQuote c = false → (isSeparator c = true → state.depths ≠ .level) →
      Sealed (state.step c) rest → Sealed state (c :: rest)

/-- The first piece between the commas is not cut any further, nor is any start of it. -/
theorem Sealed.cut {state : SplitState} {text : List Char} (sealing : Sealed state text) :
    ∃ piece pieces, cutPieces [','] state text = piece :: pieces ∧ piece <+: text ∧
      ∀ separator, separator = ':' ∨ separator = '=' → ∀ front, front <+: piece →
        cutPieces [separator] state front = [front] := by
  induction sealing with
  | nil =>
      refine ⟨[], [], cutPieces.eq_def _ _ [], List.prefix_rfl, fun separator _ front start => ?_⟩
      rw [List.prefix_nil.mp start, cutPieces]
  | @comma state rest level =>
      refine ⟨[], _, cutPieces_separator (by decide) rfl level, List.nil_prefix,
        fun separator _ front start => ?_⟩
      rw [List.prefix_nil.mp start, cutPieces]
  | @char state c rest quote apart _ ih =>
      obtain ⟨piece, pieces, cut, start, whole⟩ := ih
      have uncut {separator : Char} (proper : isSeparator separator = true)
          (same : c = separator) : state.depths ≠ .level := apart (same ▸ proper)
      refine ⟨c :: piece, pieces, ?_, List.cons_prefix_cons.mpr ⟨rfl, start⟩,
        fun separator mark front begins => ?_⟩
      · rw [cutPieces_char quote (uncut (by decide)), cut]
        rfl
      · have proper : isSeparator separator = true := by rcases mark with rfl | rfl <;> decide
        cases front with
        | nil => rw [cutPieces]
        | cons d front =>
            obtain ⟨rfl, later⟩ := List.cons_prefix_cons.mp begins
            rw [cutPieces_char quote (uncut proper), whole separator mark front later]
            rfl

/-! ## What is sealed -/

/-- The state of the splitter where only angles are open, and where no default value is read. -/
def SplitState.angled (angle : Nat) (afterDash : Bool) : SplitState :=
  ⟨⟨0, 0, 0, angle⟩, false, afterDash⟩

/-- A character of types that are built from names by angles and question marks. -/
def isAngleChar (c : Char) : Bool :=
  isWordChar c || ['<', '>', ',', ' ', '?'].contains c

theorem step_angled {c : Char}
    (opened : Bracket.opened? c = none ∨ Bracket.opened? c = some .angle)
    (closed : Bracket.closed? c = none ∨ Bracket.closed? c = some .angle) {depths : Depths}
    (equals : c = '=' → depths ≠ .level) (afterDash : Bool) :
    ∃ angle, SplitState.step ⟨depths, false, afterDash⟩ c =
      ⟨{ depths with angle := angle }, false, c == '-'⟩ := by
  have noDefault : (c == '=' && depths == .level) = false := by
    by_cases same : c = '='
    · simp [equals same]
    · simp [same]
  rcases opened with opened | opened <;> rcases closed with ended | ended <;>
    simp only [SplitState.step, opened, ended, noDefault, Bool.false_or]
  · exact ⟨depths.angle, rfl⟩
  · split
    · exact ⟨depths.angle, rfl⟩
    · exact ⟨depths.angle - 1, rfl⟩
  · exact ⟨depths.angle + 1, rfl⟩
  · exact ⟨depths.angle + 1, rfl⟩

/-- Brackets other than angles are open. -/
def Depths.IsFenced (depths : Depths) : Prop :=
  depths.round ≠ 0 ∨ depths.square ≠ 0 ∨ depths.curly ≠ 0

theorem Depths.IsFenced.ne_level {depths : Depths} (fenced : depths.IsFenced) :
    depths ≠ .level := by
  rintro rfl
  simp [IsFenced, level] at fenced

theorem Fenced.enter {opening closing : Char} {kind : Bracket}
    (bracket : Fenced opening closing kind) (depths : Depths) (afterDash : Bool) :
    SplitState.step ⟨depths, false, afterDash⟩ opening = ⟨depths.enter kind, false, false⟩ ∧
      (depths.enter kind).IsFenced := by
  cases bracket <;> exact ⟨rfl, by simp [Depths.IsFenced, Depths.enter]⟩

theorem Fenced.leave {opening closing : Char} {kind : Bracket}
    (bracket : Fenced opening closing kind) (depths : Depths) (angle : Nat) (afterDash : Bool) :
    SplitState.step ⟨{ depths.enter kind with angle := angle }, false, afterDash⟩ closing =
      ⟨{ depths with angle := angle }, false, false⟩ := by
  cases bracket <;> rfl

section Sealed

variable {allowed : Char → Bool} {inside : Bool} {text rest : List Char}

/-- Types and the commas between them seal what comes before a call's parentheses. -/
theorem sealed_angles (chars : ∀ c ∈ text, isAngleChar c = true)
    (later : ∀ angle afterDash, Sealed (.angled angle afterDash) rest) (angle : Nat)
    (afterDash : Bool) : Sealed (.angled angle afterDash) (text ++ rest) := by
  induction text generalizing angle afterDash with
  | nil => exact later angle afterDash
  | cons c text ih =>
      obtain ⟨first, others⟩ := List.forall_mem_cons.mp chars
      have quote : isQuote c = false := isQuote_of_class first (by decide) (by decide)
      have equals : c ≠ '=' := ne_of_class first (by decide)
      have colon : c ≠ ':' := ne_of_class first (by decide)
      have opened : Bracket.opened? c = none ∨ Bracket.opened? c = some .angle := by
        unfold Bracket.opened?
        split <;> first | exact .inl rfl | exact .inr rfl | (revert first; decide)
      have closed : Bracket.closed? c = none ∨ Bracket.closed? c = some .angle := by
        unfold Bracket.closed?
        split <;> first | exact .inl rfl | exact .inr rfl | (revert first; decide)
      by_cases cut : c = ',' ∧ angle = 0
      · obtain ⟨rfl, rfl⟩ := cut
        exact .comma rfl
      · obtain ⟨next, step⟩ := @step_angled c opened closed ⟨0, 0, 0, angle⟩
          (fun same => absurd same equals) afterDash
        refine .char quote (fun proper level => ?_) ?_
        · simp only [isSeparator, Bool.or_eq_true, beq_iff_eq, colon, equals, or_false] at proper
          simp only [SplitState.angled, Depths.level, Depths.mk.injEq, true_and] at level
          exact cut ⟨proper, level⟩
        · rw [SplitState.angled, step]
          exact ih others next (c == '-')

/-- Code seals itself where brackets other than angles are open. -/
theorem Code.sealed (code : Code allowed inside text) (plain : ∀ c ∈ text, isQuote c = false)
    {depths : Depths} (fenced : depths.IsFenced)
    (later : ∀ angle afterDash, Sealed ⟨{ depths with angle := angle }, false, afterDash⟩ rest)
    (afterDash : Bool) : Sealed ⟨depths, false, afterDash⟩ (text ++ rest) := by
  induction code generalizing depths afterDash rest with
  | nil => exact later depths.angle afterDash
  | @char inside c text coded _ _ _ ih =>
      obtain ⟨quote, others⟩ := List.forall_mem_cons.mp plain
      obtain ⟨opened, closed⟩ := bracket_codeChar coded
      obtain ⟨angle, step⟩ := step_angled opened closed (fun _ => fenced.ne_level) afterDash
      refine .char quote (fun _ => fenced.ne_level) ?_
      rw [step]
      exact @ih rest others { depths with angle := angle } fenced later (c == '-')
  | @literal inside quote tail text quoted =>
      have quote := plain quote List.mem_cons_self
      rw [quoted] at quote
      cases quote
  | @group inside opening closing kind text more bracket _ _ body after =>
      simp only [List.forall_mem_append, List.forall_mem_cons] at plain
      obtain ⟨noOpening, inner, noClosing, others⟩ := plain
      rw [List.cons_append, List.append_assoc, List.cons_append]
      obtain ⟨enter, deeper⟩ := bracket.enter depths afterDash
      refine .char noOpening (fun _ => fenced.ne_level) ?_
      rw [enter]
      refine body inner deeper (fun angle afterDash => ?_) false
      have apart := @Depths.IsFenced.ne_level { depths.enter kind with angle := angle } deeper
      refine .char noClosing (fun _ => apart) ?_
      rw [bracket.leave]
      exact @after rest others { depths with angle := angle } fenced later false

/-- The parentheses of a call are sealed, and only angles are open behind them. -/
theorem sealed_parentheses (code : Code allowed true text)
    (plain : ∀ c ∈ text, isQuote c = false)
    (later : ∀ angle afterDash, Sealed (.angled angle afterDash) rest) (angle : Nat)
    (afterDash : Bool) : Sealed (.angled angle afterDash) ('(' :: (text ++ ')' :: rest)) := by
  have bracket : Fenced '(' ')' .round := .round
  obtain ⟨enter, fenced⟩ := bracket.enter ⟨0, 0, 0, angle⟩ afterDash
  refine .char (by decide) nofun ?_
  rw [SplitState.angled, enter]
  refine code.sealed plain fenced (fun angle afterDash => ?_) false
  refine .char (by decide) nofun ?_
  rw [bracket.leave]
  exact later angle false

theorem sealed_blanks {blanks : List Char} (blank : ∀ c ∈ blanks, isBlank c = true)
    {depths : Depths} (deep : depths ≠ .level) (later : Sealed (.within depths) rest) :
    Sealed (.within depths) (blanks ++ rest) := by
  induction blanks with
  | nil => exact later
  | cons c blanks ih =>
      obtain ⟨first, others⟩ := List.forall_mem_cons.mp blank
      refine .char (isQuote_of_isBlank first) (fun _ => deep) ?_
      rw [step_of_isBlank first]
      exact ih others

/-- Where brackets are open, a text with nested brackets is sealed. -/
theorem Nested.sealed (nested : Nested inside text) {depths : Depths} (deep : depths ≠ .level)
    (later : Sealed (.within depths) rest) : Sealed (.within depths) (text ++ rest) := by
  induction nested generalizing depths rest with
  | nil => exact later
  | @char inside c type =>
      refine .char (isQuote_of_isTypeChar type) (fun _ => deep) ?_
      rwa [step_typeChar type]
  | blank => exact .char (by decide) (fun _ => deep) later
  | arrow => exact .char (by decide) (fun _ => deep) (.char (by decide) (fun _ => deep) later)
  | @separator c cut =>
      have step : (SplitState.within depths).step c = .within depths := by
        rcases cut with rfl | rfl <;> rfl
      refine .char (by rcases cut with rfl | rfl <;> decide) (fun _ => deep) ?_
      rwa [step]
  | append _ _ first last =>
      rw [List.append_assoc]
      exact first deep (last deep later)
  | @group inside opening closing text paired _ ih =>
      obtain ⟨kind, enter, leave⟩ := paired.step
      have quotes : isQuote opening = false ∧ isQuote closing = false := by
        cases paired <;> decide
      have deeper := depths.enter_ne_level kind
      rw [List.cons_append, List.append_assoc, List.singleton_append]
      refine .char quotes.1 (fun _ => deep) ?_
      rw [enter]
      refine ih deeper (.char quotes.2 (fun _ => deeper) ?_)
      rwa [leave, depths.leave_enter]

end Sealed

end DartBindings.Source
