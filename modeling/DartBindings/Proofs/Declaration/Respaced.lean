import DartBindings.Proofs.Declaration.Suffix
import DartBindings.Proofs.Source.Cuts
import DartBindings.Proofs.Source.Gap
import DartBindings.Proofs.Text.Strip
import DartBindings.Dart.TypeMapping
import DartBindings.Declaration.Signature
import Mathlib.Data.List.Forall2

/-!
Texts that differ in the blanks at one place between two tokens. They are cut into the same
pieces, up to the blanks at that place, and the same name is the last word of both.
-/

set_option autoImplicit false

namespace DartBindings.Declaration

open Text Source
open Dart (isOptionalMark)

/-! ## Junctions -/

/-- Whatever comes between the two texts keeps no sink type from its qualifier, and does not come
between marks of an optional type. -/
structure KeepsSinks (first last : List Char) : Prop where
  sink : first.getLast? = some '.' → String.ofList (last.takeWhile isWordChar) ∉ sinkTypes
  marks : ∀ c ∈ first.getLast?, ∀ d ∈ last.head?,
    isOptionalMark c = true → isOptionalMark d = false

/-- Blanks may come between the two texts: nor do they part a word. -/
structure Loose (first last : List Char) : Prop extends KeepsSinks first last where
  words : ∀ c ∈ first.getLast?, ∀ d ∈ last.head?, isWordChar c = true → isWordChar d = false

/-- A text starts with no word character, or it is empty. -/
theorem takeWhile_of_endsWord {after : List Char} (ends : EndsWord after) :
    after.takeWhile isWordChar = [] := by
  cases after with
  | nil => rfl
  | cons c after => exact List.takeWhile_cons_of_neg (by simp [ends c after rfl])

theorem takeWhile_append_of_endsWord (text : List Char) {after : List Char}
    (ends : EndsWord after) : (text ++ after).takeWhile isWordChar = text.takeWhile isWordChar := by
  rw [List.takeWhile_append, takeWhile_of_endsWord ends, List.append_nil]
  split
  · rename_i whole
    exact ((List.takeWhile_prefix _).eq_of_length whole).symm
  · rfl

theorem getLast?_of_suffix {part whole : List Char} (suffix : part <:+ whole) {c : Char}
    (last : c ∈ part.getLast?) : c ∈ whole.getLast? := by
  obtain ⟨front, rfl⟩ := suffix
  rw [Option.mem_def] at last ⊢
  rw [List.getLast?_append, last, Option.some_or]

theorem head?_of_append {part after : List Char} {c : Char} (first : c ∈ part.head?) :
    c ∈ (part ++ after).head? := by
  rw [Option.mem_def] at first ⊢
  rw [List.head?_append, first, Option.some_or]

theorem KeepsSinks.mono {first last less part after : List Char} (keeps : KeepsSinks first last)
    (suffix : less <:+ first) (split : last = part ++ after) (ends : EndsWord after) :
    KeepsSinks less part where
  sink stop := by
    have named := keeps.sink (getLast?_of_suffix suffix stop)
    rwa [split, takeWhile_append_of_endsWord part ends] at named
  marks c ends d starts := by
    subst split
    exact keeps.marks c (getLast?_of_suffix suffix ends) d (head?_of_append starts)

/-- A junction stays loose when the texts around it are cut, between words. -/
theorem Loose.mono {first last less part after : List Char} (loose : Loose first last)
    (suffix : less <:+ first) (split : last = part ++ after) (ends : EndsWord after) :
    Loose less part where
  toKeepsSinks := loose.toKeepsSinks.mono suffix split ends
  words c ends d starts := by
    subst split
    exact loose.words c (getLast?_of_suffix suffix ends) d (head?_of_append starts)

/-! ## Lists that differ in one place -/

/-- At most one element differs, and the two that do are related. -/
inductive OneOff {α : Type} (R : α → α → Prop) : List α → List α → Prop where
  | same (list : List α) : OneOff R list list
  | one {x y : α} (before after : List α) : R x y →
      OneOff R (before ++ x :: after) (before ++ y :: after)

theorem OneOff.forall₂ {α : Type} {R : α → α → Prop} (refl : ∀ x, R x x) {list other : List α}
    (oneOff : OneOff R list other) : List.Forall₂ R list other := by
  have same (list : List α) : List.Forall₂ R list list := List.forall₂_same.mpr fun x _ => refl x
  cases oneOff with
  | same => exact same list
  | one before after related =>
      exact List.rel_append (same before) (.cons related (same after))

/-- Both are empty, or they differ in their first elements at most, or else after them. -/
theorem OneOff.cases_cons {α : Type} {R : α → α → Prop} (refl : ∀ x, R x x) {list other : List α}
    (oneOff : OneOff R list other) :
    (list = [] ∧ other = []) ∨
      ∃ x y rest others, list = x :: rest ∧ other = y :: others ∧ R x y ∧ OneOff R rest others := by
  cases oneOff with
  | same =>
      cases list with
      | nil => exact .inl ⟨rfl, rfl⟩
      | cons x rest => exact .inr ⟨x, x, rest, rest, rfl, rfl, refl x, .same rest⟩
  | @one x y before after related =>
      cases before with
      | nil => exact .inr ⟨x, y, after, after, rfl, rfl, related, .same after⟩
      | cons z before => exact .inr ⟨z, z, _, _, rfl, rfl, refl z, .one before after related⟩

theorem OneOff.filter_map {α β : Type} {R : α → α → Prop} {S : β → β → Prop} {f : α → β}
    {p : β → Bool} {list other : List α} (oneOff : OneOff R list other)
    (step : ∀ x y, R x y → S (f x) (f y) ∧ p (f x) = p (f y)) :
    OneOff S ((list.map f).filter p) ((other.map f).filter p) := by
  cases oneOff with
  | same => exact .same _
  | @one x y before after related =>
      obtain ⟨image, kept⟩ := step x y related
      simp only [List.map_append, List.map_cons, List.filter_append, List.filter_cons, kept]
      split
      · exact .one _ _ image
      · exact .same _

/-! ## Texts that differ in blanks -/

/-- The texts differ in the blanks at one place, between whole tokens and the rest. -/
inductive Respaced : List Char → List Char → Prop where
  | same (text : List Char) : Respaced text text
  | apart {first blanks others last : List Char} {spellings : List Spelling} :
      Bare (OrBlank (Starts (blanks ++ last))) first spellings →
      (∀ c ∈ blanks, isBlank c = true) → (∀ c ∈ others, isBlank c = true) → others ≠ [] →
      (blanks = [] → Loose first last) →
      Respaced (first ++ (blanks ++ last)) (first ++ (others ++ last))

theorem fits_starts (text : List Char) : Fits (OrBlank (Starts text)) text :=
  fun _ first => .inl first

theorem fits_blanks (follow : Char → Prop) {blanks : List Char}
    (blank : ∀ c ∈ blanks, isBlank c = true) (some : blanks ≠ []) (rest : List Char) :
    Fits (OrBlank follow) (blanks ++ rest) := by
  obtain ⟨d, blanks, rfl⟩ := List.exists_cons_of_ne_nil some
  intro c first
  rw [List.cons_append, List.head?_cons, Option.mem_some_iff] at first
  exact .inr (first ▸ blank d List.mem_cons_self)

theorem starts_append {blanks last part after : List Char} (split : last = part ++ after)
    (c : Char) (next : OrBlank (Starts (blanks ++ part)) c) :
    OrBlank (Starts (blanks ++ last)) c := by
  refine next.imp_left fun first => ?_
  rw [split, ← List.append_assoc]
  exact head?_of_append first

variable {text other : List Char} {separator : Char}

theorem Respaced.cut (respaced : Respaced text other) (proper : isSeparator separator = true) :
    OneOff Respaced (cutPieces [separator] .start text) (cutPieces [separator] .start other) := by
  cases respaced with
  | same => exact .same _
  | @apart first blanks others last spellings bare blank otherBlank some loose =>
      have quiet : SplitState.start.afterDash = true →
          ¬ First (OrBlank (Starts (blanks ++ last))) first '>' := fun dash => by cases dash
      obtain ⟨pieces, start, state, cut, -, inside, bareStart⟩ := bare.cut proper quiet
      obtain ⟨piece, more, after, cutLast, split, ends⟩ :=
        cutPieces_first separator { state with afterDash := false } last
      rw [cut.gap proper blank (fits_starts _),
        cut.gap proper otherBlank (fits_blanks _ otherBlank some last), cutLast]
      simp only [extendFirst, List.append_assoc]
      exact .one pieces more (.apart (bareStart.mono (starts_append split)) blank otherBlank some
        fun none => (loose none).mono cut.suffix split (endsWord_of_isSeparator proper ends))

theorem endsWord_of_forall {after : List Char} (others : ∀ c ∈ after, isWordChar c = false) :
    EndsWord after := by
  rintro c rest rfl
  exact others c List.mem_cons_self

theorem Respaced.strip (respaced : Respaced text other) :
    Respaced (Text.strip text) (Text.strip other) := by
  cases respaced with
  | same => exact .same _
  | @apart first blanks others last spellings bare blank otherBlank some loose =>
      rcases strip_gap first last with ⟨stripped, same⟩ | ⟨-, ⟨c, member, solid⟩, same⟩
      · rw [same blanks blank, same others otherBlank]
        exact .same _
      · rw [same blanks, same others]
        obtain ⟨after, split, dropped⟩ := dropEndWhile_split isBlank last
        exact .apart (bare.dropWhile.mono (starts_append split)) blank otherBlank some fun none =>
          (loose none).mono (List.dropWhile_suffix isBlank) split
            (endsWord_of_forall fun c member => isWordChar_of_isBlank (dropped c member))

theorem Respaced.strip_isEmpty (respaced : Respaced text other) :
    (Text.strip text).isEmpty = (Text.strip other).isEmpty := by
  cases respaced with
  | same => rfl
  | @apart first blanks others last spellings bare blank otherBlank some loose =>
      rcases strip_gap first last with ⟨stripped, same⟩ | ⟨solid, -, same⟩
      · rw [same blanks blank, same others otherBlank]
      · obtain ⟨c, start, split⟩ := List.exists_cons_of_ne_nil solid
        rw [same blanks, same others, split]
        rfl

theorem Respaced.splitTopLevel (respaced : Respaced text other)
    (proper : isSeparator separator = true) :
    OneOff Respaced (splitTopLevel [separator] text) (splitTopLevel [separator] other) := by
  refine (respaced.cut proper).filter_map fun x y related => ⟨related.strip, ?_⟩
  rw [related.strip_isEmpty]

/-! ## Words -/

def spelled (text : List Char) : List Spelling :=
  (tokens text 0 text.length).map Token.spelling

theorem spelled_append {follow : Char → Prop} {first rest : List Char}
    {spellings : List Spelling} (stretch : Stretch follow first spellings)
    (fits : Fits follow rest) : spelled (first ++ rest) = spellings ++ spelled rest := by
  have here : (first ++ rest).drop 0 = first ++ rest := rfl
  obtain ⟨inside, same, read⟩ := stretch.tokens here fits
  have later := tokens_suffix first rest 0 rest.length
  rw [Nat.add_zero, ← List.length_append] at later
  rw [spelled, read, Nat.zero_add, later, List.map_append, same, List.map_map]
  rfl

theorem lastWord_eq (text : List Char) :
    lastWord text = (((spelled text).filter fun spelling => spelling.1 == .word).getLast?).elim ""
      fun spelling => spelling.2 := by
  rw [lastWord, spelled, List.filter_map, List.getLast?_map]
  have same : ((fun spelling : Spelling => spelling.1 == .word) ∘ Token.spelling) =
      fun token => token.kind == .word := rfl
  rw [same]
  cases ((tokens text 0 text.length).filter fun token => token.kind == .word).getLast? <;> rfl

theorem spelled_gap {first gap last : List Char} {follow : Char → Prop}
    {spellings : List Spelling} (bare : Bare follow first spellings)
    (blank : ∀ c ∈ gap, isBlank c = true) (fits : ∀ c, Starts (gap ++ last) c → follow c) :
    spelled (first ++ (gap ++ last)) = spellings ++ spelled last := by
  have starts (c : Char) (next : First (Starts last) gap c) : follow c :=
    fits c ((first_starts gap last c).mp next)
  have whole := (bare.mono starts).stretch.append (bare_of_blank blank).stretch
  rw [← List.append_assoc, spelled_append whole fun _ => id, List.append_nil]

theorem Respaced.lastWord (respaced : Respaced text other) :
    Declaration.lastWord text = Declaration.lastWord other := by
  rw [lastWord_eq, lastWord_eq]
  cases respaced with
  | same => rfl
  | @apart first blanks others last spellings bare blank otherBlank some loose =>
      rw [spelled_gap bare blank fun _ => .inl, spelled_gap bare otherBlank]
      exact fits_blanks _ otherBlank some last

/-! ## Sinks -/

section Sinks

variable {first last : List Char}

theorem strip_append_of_blank (text : List Char) {gap : List Char}
    (blank : ∀ c ∈ gap, isBlank c = true) : Text.strip (text ++ gap) = Text.strip text := by
  rw [Text.strip, Text.strip, List.dropWhile_append]
  split
  · rename_i none
    rw [List.dropWhile_eq_nil_iff.mpr blank, List.isEmpty_iff.mp none]
  · exact dropEndWhile_append blank

/-- How a text depends on the blanks at a junction: not at all, or it keeps them, between a part of
what comes before and a part of what comes after. -/
inductive Keeps (first last : List Char) (text : List Char → List Char) : Prop where
  | fixed (type : List Char) : (∀ gap : List Char, (∀ c ∈ gap, isBlank c = true) →
      (gap = [] → Loose first last) → text gap = type) → Keeps first last text
  | between (less part after : List Char) : less ≠ [] → less <:+ first → part ≠ [] →
      last = part ++ after → (∀ c ∈ after, isWordChar c = false) →
      (∀ gap, text gap = less ++ (gap ++ part)) → Keeps first last text

/-- The junction between blanks. -/
theorem keeps_strip {less part after : List Char} (suffix : less <:+ first)
    (split : last = part ++ after) (others : ∀ c ∈ after, isWordChar c = false) :
    Keeps first last fun gap => Text.strip (less ++ (gap ++ part)) := by
  rcases strip_gap less part with ⟨stripped, same⟩ | ⟨some, ⟨c, member, solid⟩, same⟩
  · exact .fixed stripped fun gap blank _ => same gap blank
  · obtain ⟨blanks, splitPart, blank⟩ := dropEndWhile_split isBlank part
    refine .between _ _ (blanks ++ after) some ((List.dropWhile_suffix isBlank).trans suffix)
      (List.ne_nil_of_mem (mem_dropEndWhile member solid)) ?_ (fun d inside => ?_) same
    · rw [split, splitPart, List.append_assoc, ← splitPart]
    · rcases List.mem_append.mp inside with among | among
      · exact isWordChar_of_isBlank (blank d among)
      · exact others d among

theorem isBlank_of_isOptionalMark {c : Char} (mark : isOptionalMark c = true) :
    isBlank c = false ∧ isWordChar c = false := by
  simp only [isOptionalMark, Bool.or_eq_true, beq_iff_eq] at mark
  rcases mark with rfl | rfl <;> decide

/-- If only marks come after the junction, then no more than the blanks at it are left. -/
theorem strip_dropMarks {less part gap : List Char} (nonempty : part ≠ [])
    (suffix : less <:+ first) (starts : ∀ c ∈ part.head?, c ∈ last.head?)
    (marks : ∀ c ∈ part, isOptionalMark c = true) (blank : ∀ c ∈ gap, isBlank c = true)
    (loose : gap = [] → Loose first last) :
    Text.strip (dropEndWhile isOptionalMark (less ++ (gap ++ part))) = Text.strip less := by
  have unmarked : dropEndWhile isOptionalMark (less ++ gap) = less ++ gap := by
    refine dropEndWhile_of_getLast? fun c ends => Bool.eq_false_iff.mpr fun mark => ?_
    rw [Option.mem_def, List.getLast?_append] at ends
    cases lastBlank : gap.getLast? with
    | some d =>
        rw [lastBlank, Option.some_or, Option.some.injEq] at ends
        have solid := (isBlank_of_isOptionalMark mark).1
        rw [← ends, blank d (List.mem_of_getLast? lastBlank)] at solid
        cases solid
    | none =>
        rw [lastBlank, Option.none_or] at ends
        obtain ⟨d, part, rfl⟩ := List.exists_cons_of_ne_nil nonempty
        have other := (loose (List.getLast?_eq_none_iff.mp lastBlank)).marks c
          (getLast?_of_suffix suffix ends) d (starts d rfl) mark
        rw [marks d List.mem_cons_self] at other
        cases other
  rw [← List.append_assoc, dropEndWhile_append marks, unmarked, strip_append_of_blank less blank]

theorem Keeps.stripMarks {text : List Char → List Char} (keeps : Keeps first last text) :
    Keeps first last fun gap => Text.strip (dropEndWhile isOptionalMark (text gap)) := by
  cases keeps with
  | fixed type same =>
      refine .fixed (Text.strip (dropEndWhile isOptionalMark type)) fun gap blank loose => ?_
      rw [same gap blank loose]
  | between less part after some suffix nonempty split others same =>
      simp only [same]
      by_cases marked : ∃ c ∈ part, isOptionalMark c = false
      · obtain ⟨marks, splitPart, mark⟩ := dropEndWhile_split isOptionalMark part
        have unmarked (gap : List Char) : dropEndWhile isOptionalMark (less ++ (gap ++ part)) =
            less ++ (gap ++ dropEndWhile isOptionalMark part) := by
          have later : ∃ c ∈ gap ++ part, isOptionalMark c = false := by
            obtain ⟨c, among, other⟩ := marked
            exact ⟨c, List.mem_append_right gap among, other⟩
          rw [dropEndWhile_append_of_exists later, dropEndWhile_append_of_exists marked]
        simp only [unmarked]
        have rest : last = dropEndWhile isOptionalMark part ++ (marks ++ after) := by
          rw [split, ← List.append_assoc, ← splitPart]
        refine keeps_strip suffix rest fun c member => ?_
        rcases List.mem_append.mp member with among | among
        · exact (isBlank_of_isOptionalMark (mark c among)).2
        · exact others c among
      · refine .fixed (Text.strip less) fun gap blank loose => ?_
        refine strip_dropMarks nonempty suffix ?_ ?_ blank loose
        · intro c starts
          rw [split]
          exact head?_of_append starts
        · intro c among
          exact (Bool.not_eq_false _).mp fun other => marked ⟨c, among, other⟩

theorem withoutOptionalMarks_gap (first last : List Char) :
    Keeps first last fun gap => withoutOptionalMarks (first ++ (gap ++ last)) :=
  (keeps_strip (List.suffix_refl first) (List.append_nil last).symm (by simp)).stripMarks

theorem lastComponent_append_of_mem (text : List Char) {component : List Char}
    (stop : '.' ∈ component) : lastComponent (text ++ component) = lastComponent component := by
  have ended : component.reverse.takeWhile (fun c => c != '.') ≠ component.reverse := by
    intro whole
    rw [List.takeWhile_eq_self_iff] at whole
    exact absurd (whole '.' (List.mem_reverse.mpr stop)) (by decide)
  rw [lastComponent, lastComponent, List.reverse_append, List.takeWhile_append, if_neg]
  exact fun length => ended ((List.takeWhile_prefix _).eq_of_length length)

theorem lastComponent_append_of_not_mem (text : List Char) {component : List Char}
    (none : '.' ∉ component) :
    lastComponent (text ++ component) = lastComponent text ++ component := by
  have whole : component.reverse.takeWhile (fun c => c != '.') = component.reverse := by
    rw [List.takeWhile_eq_self_iff]
    intro c member
    have other : c ≠ '.' := fun same => none (same ▸ List.mem_reverse.mp member)
    simpa using other
  rw [lastComponent, lastComponent, List.reverse_append, List.takeWhile_append, whole, if_pos rfl,
    List.reverse_append, List.reverse_reverse]

theorem lastComponent_suffix (text : List Char) : lastComponent text <:+ text := by
  have start : text.reverse.takeWhile (fun c => c != '.') <+: text.reverse :=
    List.takeWhile_prefix _
  have suffix := List.reverse_suffix.mpr start
  rwa [List.reverse_reverse] at suffix

theorem getLast?_of_lastComponent {text : List Char} (nonempty : text ≠ [])
    (none : lastComponent text = []) : text.getLast? = some '.' := by
  have split := List.dropLast_concat_getLast nonempty
  rw [← split, List.getLast?_concat]
  by_contra other
  have last : '.' ∉ [text.getLast nonempty] := by
    intro member
    exact other (congrArg _ (List.mem_singleton.mp member).symm)
  rw [← split, lastComponent_append_of_not_mem _ last] at none
  cases (List.append_eq_nil_iff.mp none).2

theorem isWordChar_of_mem_sinkTypes {word : List Char} (sink : String.ofList word ∈ sinkTypes) :
    ∀ c ∈ word, isWordChar c = true := by
  have each : sinkTypes.all (fun name => name.toList.all isWordChar) = true := by decide +kernel
  have chars := List.all_eq_true.mp each _ sink
  rwa [String.toList_ofList, List.all_eq_true] at chars

/-- A word that blanks would part is no name of a sink type at a loose junction, nor one that a
qualifier comes before. -/
theorem not_sink_of_loose {less part after gap : List Char} (solid : less ≠ [])
    (suffix : less <:+ first) (nonempty : part ≠ []) (split : last = part ++ after)
    (others : ∀ c ∈ after, isWordChar c = false) (blank : ∀ c ∈ gap, isBlank c = true)
    (loose : gap = [] → Loose first last) :
    String.ofList (lastComponent less ++ (gap ++ part)) ∉ sinkTypes := by
  intro sink
  have chars := isWordChar_of_mem_sinkTypes sink
  obtain ⟨d, part, rfl⟩ := List.exists_cons_of_ne_nil nonempty
  cases gap with
  | cons c gap =>
      have word := chars c (by simp)
      rw [isWordChar_of_isBlank (blank c List.mem_cons_self)] at word
      cases word
  | nil =>
      have apart := loose rfl
      have starts : d ∈ last.head? := by
        rw [split]
        rfl
      cases ends : (lastComponent less).getLast? with
      | none =>
          have none := List.getLast?_eq_none_iff.mp ends
          have stop := getLast?_of_suffix suffix (getLast?_of_lastComponent solid none)
          have named := apart.sink stop
          rw [none, List.nil_append, List.nil_append] at sink chars
          rw [split, takeWhile_append_of_endsWord _ (endsWord_of_forall others),
            List.takeWhile_eq_self_iff.mpr chars] at named
          exact named sink
      | some c =>
          have last := getLast?_of_suffix ((lastComponent_suffix less).trans suffix) ends
          have word := chars c (List.mem_append_left _ (List.mem_of_getLast? ends))
          have other := apart.words c last d starts word
          rw [chars d (by simp)] at other
          cases other

/-- Whether a type is a sink does not depend on how many blanks are at a junction. -/
theorem isSink_gap (first last : List Char) :
    ∃ sink, ∀ gap : List Char, (∀ c ∈ gap, isBlank c = true) → (gap = [] → Loose first last) →
      ∀ name, isSink ⟨name, String.ofList (first ++ (gap ++ last))⟩ = sink := by
  simp only [isSink, String.toList_ofList]
  cases withoutOptionalMarks_gap first last with
  | fixed type same =>
      refine ⟨sinkTypes.contains (String.ofList (lastComponent type)), fun gap blank loose _ => ?_⟩
      rw [same gap blank loose]
  | between less part after some suffix nonempty split others same =>
      by_cases stop : '.' ∈ part
      · refine ⟨sinkTypes.contains (String.ofList (lastComponent part)), fun gap _ _ _ => ?_⟩
        rw [same, ← List.append_assoc, lastComponent_append_of_mem _ stop]
      · refine ⟨false, fun gap blank loose _ => ?_⟩
        have none : '.' ∉ gap ++ part := by
          intro member
          rcases List.mem_append.mp member with inside | inside
          · exact absurd (blank '.' inside) (by decide)
          · exact stop inside
        rw [same, lastComponent_append_of_not_mem _ none, List.contains_eq_mem,
          decide_eq_false_iff_not]
        exact not_sink_of_loose some suffix nonempty split others blank loose

end Sinks

/-! ## Comments -/

section Comments

variable {follow : Char → Prop} {first last comment : List Char} {spellings : List Spelling}

/-- A comment between tokens leaves a blank in the text without its comments, or nothing. -/
theorem respaced_stripComments (stretch : Stretch follow first spellings)
    (isComment : IsComment comment) (fits : Fits follow last)
    (fitsComment : Fits follow (comment ++ last)) (keeps : KeepsSinks first last) :
    Respaced (stripComments (first ++ last)) (stripComments (first ++ (comment ++ last))) := by
  obtain ⟨bare, bared⟩ := stretch.bared
  rcases bared.last with ⟨ends, same⟩ | same
  · obtain ⟨blanks, blank, starts, trivia⟩ := stripComments_start last
    rw [same last fits, same _ fitsComment, isComment.stripComments, trivia]
    have untouched (none : blanks = []) : stripComments (last.drop (triviaLength last)) =
        stripComments last := by
      rw [starts none, List.drop_zero]
    have head (none : blanks = []) :
        (stripComments (last.drop (triviaLength last))).head? = last.head? := by
      rw [untouched none, head?_stripComments (starts none)]
    have first (c : Char) (next : OrBlank (Starts (blanks ++ stripComments
        (last.drop (triviaLength last)))) c) : OrBlank follow c := by
      rcases next with starts | space
      · cases blanks with
        | nil => exact .inl (fits c ((head rfl).symm.trans starts))
        | cons d blanks =>
            cases starts
            exact .inr (blank c List.mem_cons_self)
      · exact .inr space
    refine @Respaced.apart bare blanks [' '] _ _ (bared.whole.mono first) blank
      (List.forall_mem_singleton.mpr rfl) (by simp) fun none => ⟨⟨fun stop => ?_, ?_⟩, ?_⟩
    · rw [untouched none, takeWhile_stripComments]
      exact keeps.sink (ends ▸ stop)
    · rw [head none, ends]
      exact keeps.marks
    · rw [head none]
      exact fun c inside d next word => bared.whole.words inside word (.inl (fits d next))
  · rw [same last fits, same _ fitsComment, isComment.trivia, Nat.add_comm,
      List.drop_length_add_append]
    exact .same _

end Comments

end DartBindings.Declaration
