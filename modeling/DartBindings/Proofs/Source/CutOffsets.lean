import Mathlib.Logic.Relation
import DartBindings.Proofs.Source.Cuts
import DartBindings.Proofs.Source.Scans

/-!
The offsets at which a text is cut. The splitter comes from place to place: behind a literal,
behind a separator where it cuts, or to the next character. The pieces are what lies between its
cuts, so nothing is lost, and it cuts wherever it comes to a separator with no bracket open.
-/

set_option autoImplicit false

namespace DartBindings.Source

open Text Relation

/-! ## Places -/

/-- An offset to which the splitter comes, with what it has counted before. -/
structure SplitPlace where
  pos : Nat
  state : SplitState

def SplitPlace.start : SplitPlace := ⟨0, .start⟩

section Judgments

variable (separator text : List Char)

/-- The separator starts here, not with a quote or with a bracket that counts, and no bracket is
open. -/
structure SplitPlace.Cuts (place : SplitPlace) : Prop where
  separator : separator <+: text.drop place.pos
  level : place.state.depths = .level
  noQuote : ∀ c, text[place.pos]? = some c → isQuote c = false
  noBracket : ∀ c, text[place.pos]? = some c → place.state.isBracket c = false

/-- How the splitter goes on from a place. -/
inductive SplitPlace.Step : SplitPlace → SplitPlace → Prop where
  | literal {place c rest} : text.drop place.pos = c :: rest → isQuote c = true →
      Step place ⟨skipLiteral text place.pos, { place.state with
        afterDash := endsWithDash (text.take (skipLiteral text place.pos)) }⟩
  | cut {place} : place.Cuts separator text →
      Step place ⟨place.pos + separator.length,
        ⟨.level, false, endsWithDash (text.take (place.pos + separator.length))⟩⟩
  | char {place c rest} : text.drop place.pos = c :: rest → isQuote c = false →
      ¬ place.Cuts separator text → Step place ⟨place.pos + 1, place.state.step c⟩

/-- The splitter comes to this place. -/
def SplitPlace.Reached (place : SplitPlace) : Prop :=
  ReflTransGen (Step separator text) start place

/-- The pieces of what is left of the text. -/
def SplitPlace.pieces (place : SplitPlace) : List (List Char) :=
  cutPieces separator place.state (text.drop place.pos)

/-- Between two of the pieces, joined by the separator, is a cut at this offset. -/
def IsCut (pieces : List (List Char)) (pos : Nat) : Prop :=
  ∃ before after, before ≠ [] ∧ after ≠ [] ∧ pieces = before ++ after ∧
    (separator.intercalate before).length = pos

end Judgments

variable {separator text : List Char} {place next : SplitPlace}

/-! ## Steps -/

theorem SplitPlace.Cuts.exists_drop (cuts : place.Cuts separator text) (proper : separator ≠ []) :
    ∃ c rest, text.drop place.pos = c :: rest ∧ isQuote c = false ∧
      place.state.isBracket c = false := by
  obtain ⟨c, more, rfl⟩ := List.exists_cons_of_ne_nil proper
  obtain ⟨rest, here⟩ := cuts.separator
  have first : text[place.pos]? = some c := by
    rw [← List.head?_drop, ← here]
    rfl
  exact ⟨c, more ++ rest, here.symm, cuts.noQuote c first, cuts.noBracket c first⟩

theorem endsWithDash_append (front : List Char) {last : List Char} (proper : last ≠ []) :
    endsWithDash (front ++ last) = endsWithDash last := by
  rw [endsWithDash, endsWithDash, List.getLast?_append_of_ne_nil front proper]

theorem endsWithDash_take {pos : Nat} {taken rest : List Char}
    (here : text.drop pos = taken ++ rest) (proper : taken ≠ []) :
    endsWithDash (text.take (pos + taken.length)) = endsWithDash taken := by
  rw [List.take_add, here, List.take_left, endsWithDash_append _ proper]

/-- Where it cuts, the splitter ends a piece. -/
theorem SplitPlace.pieces_cut (cuts : place.Cuts separator text) (proper : separator ≠ []) :
    place.pieces separator text = [] :: SplitPlace.pieces separator text
      ⟨place.pos + separator.length,
        ⟨.level, false, endsWithDash (text.take (place.pos + separator.length))⟩⟩ := by
  obtain ⟨c, rest, here, quote, bracket⟩ := cuts.exists_drop proper
  obtain ⟨after, split⟩ := cuts.separator
  have starts : separator.isPrefixOf (c :: rest) = true := by
    rw [List.isPrefixOf_iff_prefix, ← here]
    exact cuts.separator
  have positive := List.length_pos_iff.mpr proper
  have beyond : text.drop (place.pos + separator.length) = rest.drop (separator.length - 1) := by
    rw [← drop_add here, Nat.sub_add_cancel positive]
  rw [pieces, pieces, here, cutPieces, endsWithDash_take split.symm proper, beyond]
  simp only [quote, bracket, starts, cuts.level, Bool.false_eq_true, ↓reduceIte, Bool.not_false,
    Bool.and_self, beq_self_eq_true]

theorem SplitPlace.Cuts.not_quote (cuts : place.Cuts separator text) {c : Char} {rest : List Char}
    (here : text.drop place.pos = c :: rest) : isQuote c = false := by
  apply cuts.noQuote
  rw [← List.head?_drop, here, List.head?_cons]

/-- A literal is taken whole. -/
theorem SplitPlace.pieces_literal {c : Char} {rest : List Char}
    (here : text.drop place.pos = c :: rest) (quote : isQuote c = true) :
    ∃ taken, place.pos + taken.length = skipLiteral text place.pos ∧
      place.pieces separator text = extendFirst taken (SplitPlace.pieces separator text
        ⟨skipLiteral text place.pos, { place.state with
          afterDash := endsWithDash (text.take (skipLiteral text place.pos)) }⟩) := by
  obtain ⟨-, inside⟩ := skipLiteral_bounds (lt_length_of_drop here)
  have size := congrArg List.length here
  rw [List.length_drop, List.length_cons] at size
  have stop : skipLiteral text place.pos = place.pos + (tailLength c rest + 1) := by
    rw [skipLiteral, here, literalLength]
  have fits : tailLength c rest ≤ rest.length := by omega
  have length : (c :: rest.take (tailLength c rest)).length = tailLength c rest + 1 := by
    rw [List.length_cons, List.length_take, Nat.min_eq_left fits]
  have split : text.drop place.pos =
      (c :: rest.take (tailLength c rest)) ++ rest.drop (tailLength c rest) := by
    rw [here, List.cons_append, List.take_append_drop]
  have dash := endsWithDash_take split (List.cons_ne_nil _ _)
  rw [length, ← stop] at dash
  refine ⟨c :: rest.take (tailLength c rest), by rw [length, stop], ?_⟩
  rw [pieces, pieces, dash, stop, drop_add here, here, cutPieces, if_pos quote]

theorem SplitPlace.pieces_char {c : Char} {rest : List Char}
    (here : text.drop place.pos = c :: rest) (quote : isQuote c = false)
    (goesOn : ¬ place.Cuts separator text) :
    place.pieces separator text = extendFirst [c]
      (SplitPlace.pieces separator text ⟨place.pos + 1, place.state.step c⟩) := by
  have first : text[place.pos]? = some c := by
    rw [← List.head?_drop, here, List.head?_cons]
  have uncut : (!place.state.isBracket c && separator.isPrefixOf (c :: rest) &&
      place.state.depths == .level) = false := by
    rw [Bool.eq_false_iff]
    simp only [ne_eq, Bool.and_eq_true, Bool.not_eq_true', List.isPrefixOf_iff_prefix, beq_iff_eq]
    rintro ⟨⟨bracket, starts⟩, level⟩
    exact goesOn ⟨here ▸ starts, level, by simp [first, quote], by simp [first, bracket]⟩
  rw [pieces, pieces, drop_succ here, here, cutPieces]
  simp only [quote, uncut, Bool.false_eq_true, ↓reduceIte]

/-- What a step leaves behind is added to the first piece, or is the separator where a piece
ends. -/
theorem SplitPlace.Step.pieces (step : Step separator text place next) (proper : separator ≠ []) :
    place.Cuts separator text ∧ next.pos = place.pos + separator.length ∧
        place.pieces separator text = [] :: next.pieces separator text ∨
      ¬ place.Cuts separator text ∧ ∃ taken, next.pos = place.pos + taken.length ∧
        place.pieces separator text = extendFirst taken (next.pieces separator text) := by
  cases step with
  | literal here quote =>
      obtain ⟨taken, stop, pieces⟩ := pieces_literal here quote
      refine .inr ⟨fun cuts => ?_, taken, stop.symm, pieces⟩
      rw [cuts.not_quote here] at quote
      cases quote
  | cut cuts => exact .inl ⟨cuts, rfl, pieces_cut cuts proper⟩
  | char here quote goesOn => exact .inr ⟨goesOn, [_], rfl, pieces_char here quote goesOn⟩

theorem SplitPlace.Step.lt (step : Step separator text place next) (proper : separator ≠ []) :
    place.pos < next.pos := by
  cases step with
  | literal here => exact (skipLiteral_bounds (lt_length_of_drop here)).1
  | cut => exact Nat.lt_add_of_pos_right (List.length_pos_iff.mpr proper)
  | char => exact Nat.lt_succ_self _

theorem SplitPlace.exists_step (separator : List Char) (inside : place.pos < text.length) :
    ∃ next, Step separator text place next := by
  obtain ⟨c, rest, here⟩ := exists_drop inside
  cases quote : isQuote c with
  | true => exact ⟨_, .literal here quote⟩
  | false =>
      by_cases cuts : place.Cuts separator text
      · exact ⟨_, .cut cuts⟩
      · exact ⟨_, .char here quote cuts⟩

theorem SplitPlace.Step.rightUnique (separator text : List Char) :
    Relator.RightUnique (Step separator text) := by
  intro place next other step again
  cases step with
  | literal here quote =>
      cases again with
      | literal => rfl
      | cut cuts =>
          rw [cuts.not_quote here] at quote
          cases quote
      | char same plain =>
          cases here.symm.trans same
          rw [plain] at quote
          cases quote
  | cut cuts =>
      cases again with
      | literal here quote =>
          rw [cuts.not_quote here] at quote
          cases quote
      | cut => rfl
      | char _ _ goesOn => exact absurd cuts goesOn
  | char here plain goesOn =>
      cases again with
      | literal same quote =>
          cases here.symm.trans same
          rw [plain] at quote
          cases quote
      | cut cuts => exact absurd cuts goesOn
      | char same =>
          cases here.symm.trans same
          rfl

/-! ## Cuts are places -/

theorem SplitPlace.pieces_ne_nil (separator text : List Char) (place : SplitPlace) :
    place.pieces separator text ≠ [] :=
  cutPieces_ne_nil _ _ _

theorem intercalate_append (separator : List Char) {first last : List (List Char)}
    (front : first ≠ []) (back : last ≠ []) :
    separator.intercalate (first ++ last) =
      separator.intercalate first ++ (separator ++ separator.intercalate last) := by
  induction first with
  | nil => exact absurd rfl front
  | cons piece first ih =>
      cases first with
      | nil =>
          rw [List.singleton_append, List.intercalate_cons_of_ne_nil back,
            List.intercalate_singleton, List.append_assoc]
      | cons next first =>
          rw [List.cons_append, List.intercalate_cons_of_ne_nil (by simp),
            ih (List.cons_ne_nil _ _), List.intercalate_cons_cons]
          simp only [List.append_assoc]

/-- Each cut of what is left of the text is at a place to which the splitter goes on, and cuts. -/
theorem SplitPlace.exists_cut {separator text : List Char} (proper : separator ≠ [])
    (place : SplitPlace) {pieces : List (List Char)} {pos : Nat}
    (split : place.pieces separator text = pieces) (isCut : IsCut separator pieces pos) :
    ∃ cut, ReflTransGen (Step separator text) place cut ∧ cut.Cuts separator text ∧
      cut.pos = place.pos + pos := by
  obtain ⟨before, after, front, back, rfl, rfl⟩ := isCut
  by_cases inside : place.pos < text.length
  · obtain ⟨next, step⟩ := exists_step separator inside
    have further := step.lt proper
    obtain ⟨first, before, rfl⟩ := List.exists_cons_of_ne_nil front
    rcases step.pieces proper with ⟨cuts, stop, cut⟩ | ⟨-, taken, stop, goesOn⟩
    · rw [cut, List.cons_append, List.cons.injEq] at split
      obtain ⟨rfl, split⟩ := split
      by_cases last : before = []
      · subst last
        exact ⟨place, .refl, cuts, by simp⟩
      · obtain ⟨cut, reached, cuts, pos⟩ :=
          exists_cut proper next split ⟨before, after, last, back, rfl, rfl⟩
        refine ⟨cut, .head step reached, cuts, ?_⟩
        rw [pos, stop, List.intercalate_cons_of_ne_nil last]
        simp only [List.length_append, List.length_nil]
        omega
    · obtain ⟨piece, others, later⟩ :=
        List.exists_cons_of_ne_nil (next.pieces_ne_nil separator text)
      rw [goesOn, later, extendFirst, List.cons_append, List.cons.injEq] at split
      obtain ⟨rfl, rfl⟩ := split
      obtain ⟨cut, reached, cuts, pos⟩ := exists_cut proper next later
        ⟨piece :: before, after, List.cons_ne_nil _ _, back, rfl, rfl⟩
      refine ⟨cut, .head step reached, cuts, ?_⟩
      have joined := intercalate_extendFirst separator taken (List.cons_ne_nil piece before)
      rw [extendFirst] at joined
      rw [pos, stop, joined, List.length_append]
      omega
  · -- After the text there is one piece, which is empty.
    have ended : text.drop place.pos = [] := List.drop_eq_nil_iff.mpr (Nat.le_of_not_lt inside)
    rw [SplitPlace.pieces, ended, cutPieces] at split
    have size := congrArg List.length split
    rw [List.length_append, List.length_singleton] at size
    have first := List.length_pos_iff.mpr front
    have last := List.length_pos_iff.mpr back
    omega
termination_by text.length - place.pos

/-- What the splitter has cut before it comes to a place, with the start of the piece it is in. -/
theorem SplitPlace.Reached.split (reached : place.Reached separator text)
    (proper : separator ≠ []) :
    ∃ before last, cutPieces separator .start text =
        before ++ extendFirst last (place.pieces separator text) ∧
      (separator.intercalate (before ++ [last])).length = place.pos := by
  induction reached with
  | refl =>
      refine ⟨[], [], ?_, rfl⟩
      rw [extendFirst_nil (pieces_ne_nil _ _ _)]
      rfl
  | @tail place next _ step ih =>
      obtain ⟨before, last, split, pos⟩ := ih
      rcases step.pieces proper with ⟨-, stop, cut⟩ | ⟨-, taken, stop, goesOn⟩
      · refine ⟨before ++ [last], [], ?_, ?_⟩
        · rw [split, cut, extendFirst_nil (pieces_ne_nil _ _ _), extendFirst, List.append_nil,
            List.append_assoc, List.singleton_append]
        · rw [intercalate_append separator (by simp) (List.cons_ne_nil _ _), List.length_append,
            pos, stop, List.intercalate_singleton, List.append_nil]
      · refine ⟨before, last ++ taken, ?_, ?_⟩
        · rw [split, goesOn, extendFirst_extendFirst]
        · rw [stop, ← pos]
          by_cases first : before = []
          · simp [first]
          · simp [intercalate_append separator first (List.cons_ne_nil _ _), Nat.add_assoc]

theorem isCut_iff (proper : separator ≠ []) (pos : Nat) :
    IsCut separator (cutPieces separator .start text) pos ↔
      ∃ place : SplitPlace, place.Reached separator text ∧ place.Cuts separator text ∧
        place.pos = pos := by
  constructor
  · intro isCut
    obtain ⟨cut, reached, cuts, stop⟩ := SplitPlace.exists_cut proper .start rfl isCut
    exact ⟨cut, reached, cuts, stop.trans (Nat.zero_add pos)⟩
  · rintro ⟨place, reached, cuts, rfl⟩
    obtain ⟨before, last, split, pos⟩ := SplitPlace.Reached.split reached proper
    rw [SplitPlace.pieces_cut cuts proper, extendFirst, List.append_nil, List.append_cons] at split
    exact ⟨before ++ [last], _, by simp, SplitPlace.pieces_ne_nil _ _ _, split, pos⟩

/-! ## Cuts and literals -/

theorem SplitPlace.pos_le (goesOn : ReflTransGen (Step separator text) place next)
    (proper : separator ≠ []) : place.pos ≤ next.pos := by
  induction goesOn with
  | refl => exact Nat.le_refl _
  | tail _ step before => exact before.trans (step.lt proper).le

section Reached

variable {other : SplitPlace} (reached : place.Reached separator text)
  (again : other.Reached separator text) (proper : separator ≠ [])

include reached again proper

/-- The splitter comes to an offset once only. -/
theorem SplitPlace.Reached.eq_of_pos (same : place.pos = other.pos) : place = other := by
  have eq_of_goesOn {first last : SplitPlace} (same : first.pos = last.pos)
      (goesOn : ReflTransGen (Step separator text) first last) : first = last := by
    rcases goesOn.cases_head with equal | ⟨next, step, beyond⟩
    · exact equal
    · have further := step.lt proper
      have later := pos_le beyond proper
      omega
  rcases reached.total_of_right_unique (Step.rightUnique separator text) again with after | before
  · exact eq_of_goesOn same after
  · exact (eq_of_goesOn same.symm before).symm

/-- Between the ends of a literal the splitter comes to no place where it cuts. -/
theorem SplitPlace.Reached.outside_literal {c : Char} {rest : List Char}
    (here : text.drop place.pos = c :: rest) (quote : isQuote c = true)
    (cuts : other.Cuts separator text) :
    other.pos < place.pos ∨ skipLiteral text place.pos ≤ other.pos := by
  have noCut : ¬ place.Cuts separator text := by
    intro cuts
    rw [cuts.not_quote here] at quote
    cases quote
  rcases reached.total_of_right_unique (Step.rightUnique separator text) again with after | before
  · rcases after.cases_head with rfl | ⟨next, step, beyond⟩
    · exact absurd cuts noCut
    · cases Step.rightUnique separator text step (.literal here quote)
      exact .inr (pos_le beyond proper)
  · rcases before.cases_head with rfl | ⟨next, step, beyond⟩
    · exact absurd cuts noCut
    · exact .inl ((step.lt proper).trans_le (pos_le beyond proper))

end Reached

/-- The pieces of a split, joined by the separator, are the text, and the split lists those that
are not blank, without the blanks around them. Cuts are where the splitter comes to a separator
and counts no bracket as open, and none is inside a literal to which it comes. -/
theorem splitTopLevel_cuts (proper : separator ≠ []) (text : List Char) :
    ∃ pieces, separator.intercalate pieces = text ∧
      splitTopLevel separator text = (pieces.filter fun piece => !piece.all isBlank).map strip ∧
      (∀ pos, IsCut separator pieces pos ↔ ∃ place : SplitPlace,
        place.Reached separator text ∧ place.Cuts separator text ∧ place.pos = pos) ∧
      ∀ pos, IsCut separator pieces pos →
        (∀ place : SplitPlace, place.Reached separator text → place.pos = pos →
          place.state.depths = .level) ∧
        ∀ place : SplitPlace, place.Reached separator text →
          (∃ c, text[place.pos]? = some c ∧ isQuote c = true) →
          pos < place.pos ∨ skipLiteral text place.pos ≤ pos := by
  refine ⟨cutPieces separator .start text, intercalate_cutPieces proper _ _, ?split,
    isCut_iff proper, fun pos isCut => ?cut⟩
  case split =>
    rw [splitTopLevel, List.filter_map]
    congr 1
    apply List.filter_congr
    intro piece _
    rw [Function.comp_apply, Bool.not_inj_iff, Bool.eq_iff_iff, List.isEmpty_iff, strip_eq_nil_iff,
      List.all_eq_true]
  case cut =>
    obtain ⟨cut, reached, cuts, rfl⟩ := (isCut_iff proper pos).mp isCut
    constructor
    · intro place again same
      exact again.eq_of_pos reached proper same ▸ cuts.level
    · rintro place again ⟨c, first, quote⟩
      obtain ⟨inside, rfl⟩ := List.getElem?_eq_some_iff.mp first
      exact again.outside_literal reached proper (List.drop_eq_getElem_cons inside) quote cuts

/-- A separator of two characters in type arguments, in a literal, after a stray apostrophe and
after a comparison. -/
theorem splitTopLevel_cuts_stray :
    let separator := ", ".toList
    let text := "m: Map<K, V> = a < b, '\n, s: \", \" ,  , ->, z)".toList
    separator ≠ [] ∧ ∃ pieces, separator.intercalate pieces = text ∧
      (pieces.filter fun piece => !piece.all isBlank).map strip =
        ["m: Map<K, V> = a < b".toList, "'".toList, "s: \", \"".toList, "->".toList, "z)".toList] ∧
      ∀ pos, IsCut separator pieces pos → ∀ place : SplitPlace,
        place.Reached separator text → place.pos = pos → place.state.depths = .level := by
  intro separator text
  have proper : separator ≠ [] := by decide
  obtain ⟨pieces, joined, split, -, cuts⟩ := splitTopLevel_cuts proper text
  refine ⟨proper, pieces, joined, split.symm.trans ?_, fun pos isCut => (cuts pos isCut).1⟩
  decide +kernel

end DartBindings.Source
