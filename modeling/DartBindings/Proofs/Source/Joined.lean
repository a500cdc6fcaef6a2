import DartBindings.Proofs.Source.ClosedLiteral
import DartBindings.Proofs.Source.Cuts

/-!
Splitting undoes joining. A segment that the splitter would leave whole, and in which it would not
find a bracket still open, is left whole in a list too: whatever default value, dash or angle the
splitter has met in it, the separator makes it start again.
-/

set_option autoImplicit false

namespace DartBindings.Source

open Text

/-- Every literal of the text ends in it. -/
def literalsEnd (text : List Char) : Bool :=
  match text with
  | [] => true
  | c :: rest =>
    if isQuote c then
      decide (EndsInside c rest) && literalsEnd (rest.drop (tailLength c rest))
    else literalsEnd rest
termination_by text.length
decreasing_by all_goals (simp only [List.length_cons, List.length_drop]; omega)

/-- The state in which the splitter is left at the end of a text. -/
def finalState (separator : List Char) (state : SplitState) (text : List Char) : SplitState :=
  match text with
  | [] => state
  | c :: rest =>
    if isQuote c then
      let n := tailLength c rest
      let taken := c :: rest.take n
      finalState separator { state with afterDash := endsWithDash taken } (rest.drop n)
    else if !state.isBracket c && separator.isPrefixOf (c :: rest) && state.depths == .level then
      finalState separator ⟨.level, false, endsWithDash separator⟩
        (rest.drop (separator.length - 1))
    else finalState separator (state.step c) rest
termination_by text.length
decreasing_by all_goals (simp only [List.length_cons, List.length_drop]; omega)

/-- A segment that may stand in a list with this separator. -/
structure IsSegment (separator : Char) (segment : List Char) : Prop where
  free : '\'' ∉ segment
  literals : literalsEnd segment = true
  uncut : cutPieces [separator] .start segment = [segment]
  level : (finalState [separator] .start segment).depths = .level

theorem isSegment_iff (separator : Char) (segment : List Char) :
    ('\'' ∉ segment ∧ literalsEnd segment = true ∧
        cutPieces [separator] .start segment = [segment] ∧
        (finalState [separator] .start segment).depths = .level) ↔
      IsSegment separator segment := by
  constructor
  · intro segment
    exact ⟨segment.1, segment.2.1, segment.2.2.1, segment.2.2.2⟩
  · intro segment
    exact ⟨segment.free, segment.literals, segment.uncut, segment.level⟩

instance (separator : Char) : DecidablePred (IsSegment separator) :=
  fun segment => decidable_of_iff _ (isSegment_iff separator segment)

/-- A character that the splitter does not take for anything else. -/
structure IsPlainSeparator (separator : Char) : Prop where
  noQuote : isQuote separator = false
  noOpening : Bracket.opened? separator = none
  noClosing : Bracket.closed? separator = none
  noDash : separator ≠ '-'

section Segment

variable {separator : Char} {state : SplitState} {segment rest : List Char}

theorem IsPlainSeparator.isBracket (plain : IsPlainSeparator separator) (state : SplitState) :
    state.isBracket separator = false := by
  simp only [SplitState.isBracket, plain.noOpening, plain.noClosing]

theorem extendFirst_eq_singleton {taken text : List Char} {pieces : List (List Char)}
    (nonempty : pieces ≠ []) (single : extendFirst taken pieces = [taken ++ text]) :
    pieces = [text] := by
  cases pieces with
  | nil => exact absurd rfl nonempty
  | cons piece pieces =>
      obtain ⟨first, none⟩ := List.cons.inj single
      rw [List.append_cancel_left first, none]

theorem finalState_literal {c : Char} (quote : isQuote c = true) (rest : List Char) :
    finalState [separator] state (c :: rest) =
      finalState [separator]
        { state with afterDash := endsWithDash (c :: rest.take (tailLength c rest)) }
        (rest.drop (tailLength c rest)) := by
  rw [finalState, if_pos quote]

theorem finalState_char {c : Char} (quote : isQuote c = false)
    (uncut : c = separator → state.depths ≠ .level) (rest : List Char) :
    finalState [separator] state (c :: rest) =
      finalState [separator] (state.step c) rest := by
  rw [finalState]
  simp only [quote, cuts_eq_false uncut, Bool.false_eq_true, ↓reduceIte]

/-- A literal that ends in the text is taken the same way, whatever comes after the text. -/
theorem take_tailLength (inside : EndsInside '"' segment) (free : '\'' ∉ segment)
    (apart : rest.head? ≠ some '"') :
    (segment ++ rest).take (tailLength '"' (segment ++ rest)) =
        segment.take (tailLength '"' segment) ∧
      (segment ++ rest).drop (tailLength '"' (segment ++ rest)) =
        segment.drop (tailLength '"' segment) ++ rest := by
  have same := inside.tailLength_append free apart
  have alone := inside.tailLength_eq free
  rw [← alone] at same
  have fits : tailLength '"' segment ≤ segment.length := by
    rw [alone]
    exact inside
  rw [same]
  exact ⟨List.take_append_of_le_length fits, List.drop_append_of_le_length fits⟩

/-- What comes after a segment is cut from the state on in which the segment leaves the splitter. -/
theorem cutPieces_append (plain : IsPlainSeparator separator) (free : '\'' ∉ segment)
    (literals : literalsEnd segment = true)
    (uncut : cutPieces [separator] state segment = [segment]) (apart : rest.head? ≠ some '"') :
    cutPieces [separator] state (segment ++ rest) =
      extendFirst segment (cutPieces [separator] (finalState [separator] state segment) rest) := by
  induction segment using literalsEnd.induct generalizing state with
  | case1 => rw [finalState, List.nil_append, extendFirst_nil (cutPieces_ne_nil _ _ _)]
  | case2 c segment quote ih =>
      have later : '\'' ∉ segment := fun member => free (List.mem_cons_of_mem c member)
      obtain rfl := eq_double_of_isQuote quote fun same => free (same ▸ List.mem_cons_self)
      rw [literalsEnd, if_pos quote, Bool.and_eq_true, decide_eq_true_eq] at literals
      obtain ⟨inside, others⟩ := literals
      obtain ⟨taken, dropped⟩ := take_tailLength inside later apart
      rw [cutPieces_literal quote] at uncut
      have split : '"' :: segment = '"' :: segment.take (tailLength '"' segment) ++
          segment.drop (tailLength '"' segment) := by
        rw [List.cons_append, List.take_append_drop]
      have whole := uncut.trans (congrArg (fun text => [text]) split)
      have recursive := ih (fun member => later (List.mem_of_mem_drop member)) others
        (extendFirst_eq_singleton (cutPieces_ne_nil _ _ _) whole)
      rw [List.cons_append, cutPieces_literal quote, finalState_literal quote, taken, dropped,
        recursive, extendFirst_extendFirst, ← split]
  | case3 c segment quote ih =>
      replace quote : isQuote c = false := Bool.eq_false_iff.mpr quote
      rw [literalsEnd, quote] at literals
      by_cases cut : c = separator ∧ state.depths = .level
      · obtain ⟨rfl, level⟩ := cut
        rw [cutPieces_separator quote (plain.isBracket state) level] at uncut
        cases uncut
      · have goesOn : c = separator → state.depths ≠ .level := fun same level => cut ⟨same, level⟩
        rw [cutPieces_char quote goesOn] at uncut
        have recursive := ih (fun member => free (List.mem_cons_of_mem c member)) literals
          (extendFirst_eq_singleton (cutPieces_ne_nil _ _ _) uncut)
        rw [List.cons_append, cutPieces_char quote goesOn, finalState_char quote goesOn, recursive,
          extendFirst_extendFirst]
        rfl

/-- The separator after a segment ends a piece, and the splitter starts again. -/
theorem IsSegment.cutPieces_separator (isSegment : IsSegment separator segment)
    (plain : IsPlainSeparator separator) (rest : List Char) :
    cutPieces [separator] .start (segment ++ separator :: rest) =
      segment :: cutPieces [separator] .start rest := by
  have apart : (separator :: rest).head? ≠ some '"' := by
    intro same
    have quote := plain.noQuote
    rw [Option.some.inj same] at quote
    cases quote
  have dash : (separator == '-') = false := beq_eq_false_iff_ne.mpr plain.noDash
  rw [cutPieces_append plain isSegment.free isSegment.literals isSegment.uncut apart,
    Source.cutPieces_separator plain.noQuote (plain.isBracket _) isSegment.level, dash, extendFirst,
    List.append_nil]
  rfl

theorem cutPieces_intercalate (plain : IsPlainSeparator separator) {segments : List (List Char)}
    (nonempty : segments ≠ []) (each : ∀ segment ∈ segments, IsSegment separator segment) :
    cutPieces [separator] .start ([separator].intercalate segments) = segments := by
  induction segments with
  | nil => exact absurd rfl nonempty
  | cons segment segments ih =>
      have first := each segment List.mem_cons_self
      cases segments with
      | nil =>
          rw [List.intercalate_singleton]
          exact first.uncut
      | cons next segments =>
          rw [List.intercalate_cons_cons, List.append_assoc, List.singleton_append,
            first.cutPieces_separator plain]
          congr 1
          exact ih (List.cons_ne_nil _ _) fun other member =>
            each other (List.mem_cons_of_mem segment member)

/-- Splitting a joined list gives back its segments, stripped and without the blank ones. -/
theorem splitTopLevel_intercalate (plain : IsPlainSeparator separator)
    {segments : List (List Char)} (each : ∀ segment ∈ segments, IsSegment separator segment) :
    splitTopLevel [separator] ([separator].intercalate segments) =
      (segments.map strip).filter fun piece => !piece.isEmpty := by
  cases segments with
  | nil => exact splitTopLevel_eq_nil_iff.mpr (by simp [cutPieces])
  | cons segment segments =>
      rw [splitTopLevel, cutPieces_intercalate plain (List.cons_ne_nil _ _) each]

end Segment

/-- Parameters with type arguments, an arrow, a default value with a comparison, and a literal. -/
theorem splitTopLevel_intercalate_parameters :
    let segments := [" rows: Map<K, V>".toList, "f: (Int) -> Unit = a > b".toList, " ".toList,
      "s = \"<,\" ".toList]
    IsPlainSeparator ',' ∧ (∀ segment ∈ segments, IsSegment ',' segment) ∧
      splitTopLevel [','] " rows: Map<K, V>,f: (Int) -> Unit = a > b, ,s = \"<,\" ".toList =
        ["rows: Map<K, V>".toList, "f: (Int) -> Unit = a > b".toList, "s = \"<,\"".toList] := by
  intro segments
  have plain : IsPlainSeparator ',' := ⟨by decide, rfl, rfl, by decide⟩
  have each : ∀ segment ∈ segments, IsSegment ',' segment := by decide +kernel
  have joined : [','].intercalate segments =
      " rows: Map<K, V>,f: (Int) -> Unit = a > b, ,s = \"<,\" ".toList := by decide +kernel
  have split := splitTopLevel_intercalate plain each
  rw [joined] at split
  refine ⟨plain, each, split.trans ?_⟩
  decide +kernel

end DartBindings.Source
