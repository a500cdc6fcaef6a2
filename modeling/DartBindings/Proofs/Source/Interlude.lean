import DartBindings.Proofs.Source.Locality

/-!
Two texts that differ in an interlude: the quiet rest of a line, after a mark, and further lines
that open and close the same brackets. Whatever the readers find in the text without the
interlude they find in the text with it, only further on if it lies beyond the mark.
-/

set_option autoImplicit false

namespace DartBindings.Source

open Text

/-! ## Quiet texts -/

/-- A character that no literal, comment or interpolated code starts or ends with. -/
def isQuiet (c : Char) : Bool :=
  !(['"', '\'', '/', '\\', '$'].contains c)

theorem ne_of_isQuiet {c : Char} (quiet : isQuiet c = true) :
    c ≠ '"' ∧ c ≠ '\'' ∧ c ≠ '/' ∧ c ≠ '\\' ∧ c ≠ '$' :=
  ⟨ne_of_class quiet (by decide), ne_of_class quiet (by decide), ne_of_class quiet (by decide),
    ne_of_class quiet (by decide), ne_of_class quiet (by decide)⟩

/-- The marks that end a literal. -/
inductive IsMark : List Char → Prop where
  | single {c : Char} : isQuote c = true → IsMark [c]
  | triple : IsMark tripleQuote

theorem IsMark.quotes {mark : List Char} (isMark : IsMark mark) :
    ∀ c ∈ mark, isQuote c = true := by
  cases isMark with
  | single marks => exact List.forall_mem_singleton.mpr marks
  | triple => simp [tripleQuote, isQuote]

theorem IsMark.isPrefixOf_cons {mark : List Char} (isMark : IsMark mark) {c : Char}
    (quote : isQuote c = false) (text : List Char) : mark.isPrefixOf (c :: text) = false := by
  rw [Bool.eq_false_iff]
  intro start
  rw [List.isPrefixOf_iff_prefix] at start
  cases isMark with
  | single marks =>
      rw [(List.cons_prefix_cons.mp start).1, quote] at marks
      cases marks
  | triple =>
      rw [← (List.cons_prefix_cons.mp start).1] at quote
      cases quote

/-- No mark of a literal reaches over a character that is no quote. -/
theorem IsMark.isPrefixOf_append_cons {mark : List Char} (isMark : IsMark mark) {c : Char}
    (quote : isQuote c = false) (known first second : List Char) :
    mark.isPrefixOf (known ++ c :: first) = mark.isPrefixOf (known ++ c :: second) := by
  have quotes := isMark.quotes
  clear isMark
  induction known generalizing mark with
  | nil =>
      cases mark with
      | nil => rfl
      | cons d mark =>
          have different : (d == c) = false := by
            rw [beq_eq_false_iff_ne]
            rintro rfl
            rw [quotes d List.mem_cons_self] at quote
            cases quote
          simp [List.isPrefixOf, different]
  | cons e known ih =>
      cases mark with
      | nil => rfl
      | cons d mark =>
          have same := ih fun f member => quotes f (List.mem_cons_of_mem _ member)
          rw [List.cons_append, List.cons_append, List.isPrefixOf, List.isPrefixOf, same]

theorem IsMark.length_le {mark : List Char} (isMark : IsMark mark) {c : Char}
    (quote : isQuote c = false) {known rest : List Char}
    (starts : mark.isPrefixOf (known ++ c :: rest) = true) : mark.length ≤ known.length := by
  have whole : mark.isPrefixOf (known ++ [c]) = true :=
    (isMark.isPrefixOf_append_cons quote known [] rest).trans starts
  have short := (List.isPrefixOf_iff_prefix.mp whole).length_le
  rw [List.length_append, List.length_singleton] at short
  by_contra longer
  have same : mark = known ++ [c] :=
    (List.isPrefixOf_iff_prefix.mp whole).eq_of_length (by simp; omega)
  have member : c ∈ mark := by simp [same]
  rw [isMark.quotes c member] at quote
  cases quote

theorem contentLength_quiet {mark text : List Char} (isMark : IsMark mark)
    (quiet : ∀ c ∈ text, isQuiet c = true) :
    contentLength mark text =
      if mark = ['\''] ∧ '\n' ∈ text then none else some text.length := by
  induction text with
  | nil => simp [contentLength_nil]
  | cons c rest ih =>
      have later := ih fun d member => quiet d (List.mem_cons_of_mem _ member)
      obtain ⟨double, single, -, escape, dollar⟩ := ne_of_isQuiet (quiet c List.mem_cons_self)
      have quote : isQuote c = false := by simp [isQuote, double, single]
      have goesOn := isMark.isPrefixOf_cons quote rest
      by_cases stray : c = '\n' ∧ mark = ['\'']
      · obtain ⟨rfl, rfl⟩ := stray
        rw [contentLength_stray goesOn]
        simp
      · have others : (mark = ['\''] ∧ '\n' ∈ c :: rest) ↔ (mark = ['\''] ∧ '\n' ∈ rest) := by
          rw [List.mem_cons]
          constructor
          · rintro ⟨apostrophe, rfl | member⟩
            · exact absurd ⟨rfl, apostrophe⟩ stray
            · exact ⟨apostrophe, member⟩
          · rintro ⟨apostrophe, member⟩
            exact ⟨apostrophe, .inr member⟩
        simp only [others]
        cases rest with
        | nil => simp [contentLength_last goesOn stray]
        | cons d rest =>
            have noCode : ¬ Interpolates c d '\x7d' := by
              intro starts
              cases starts
              exact dollar rfl
            rw [contentLength_char goesOn escape noCode stray, later]
            split <;> rfl

theorem blockLength_quiet {text : List Char} (quiet : ∀ c ∈ text, isQuiet c = true)
    (depth : Nat) : blockLength depth text = text.length := by
  induction text with
  | nil => rw [blockLength, List.length_nil]
  | cons c rest ih =>
      have later := ih fun d member => quiet d (List.mem_cons_of_mem _ member)
      cases rest with
      | nil => simp [blockLength]
      | cons d rest =>
          have slash := (ne_of_isQuiet (quiet c List.mem_cons_self)).2.2.1
          have next := (ne_of_isQuiet (quiet d (by simp))).2.2.1
          rw [blockLength_cons_cons, if_neg fun opens => slash opens.1,
            if_neg fun closes => next closes.2, later, List.length_cons (a := c)]

/-! ## Level texts -/

/-- The text closes every bracket that it opens, and opens every one that it closes. -/
structure Level (text : List Char) : Prop where
  passed : ∀ {lead opening closing}, Interpolates lead opening closing → ∀ {depth}, 0 < depth →
    ∀ rest, closingIndex (some opening) (some closing) depth (text ++ rest) =
      (closingIndex (some opening) (some closing) depth rest).map (· + text.length)

theorem level_nil : Level [] := by
  constructor
  intro lead opening closing _ depth _ rest
  simp

theorem Level.append {first last : List Char} (before : Level first) (after : Level last) :
    Level (first ++ last) := by
  constructor
  intro lead opening closing starts depth positive rest
  rw [List.append_assoc, before.passed starts positive, after.passed starts positive,
    map_add_map_add, List.length_append, Nat.add_comm]

theorem level_of_inert {text : List Char}
    (inert : ∀ {lead opening closing}, Interpolates lead opening closing →
      ∀ c ∈ text, Inert (some opening) (some closing) c) : Level text := by
  constructor
  intro lead opening closing starts depth _ rest
  exact closingIndex_inert (inert starts) rest

/-! ## Interludes -/

/-- What comes after a mark: the rest of its line, and lines after that one, before the `last`
lines of a text. -/
structure Interlude (line others last : List Char) : Prop where
  quiet : ∀ c ∈ line ++ (others ++ last), isQuiet c = true
  noBreak : '\n' ∉ line
  starts : (others ++ last).head? = some '\n'
  ends : last.head? = some '\n'
  levelLine : Level line
  levelOthers : Level others

/-- Where an offset goes when a gap opens after the first characters of a text. -/
def shifted (before gap n : Nat) : Nat :=
  if n ≤ before then n else n + gap

theorem shifted_add (before gap n k : Nat) :
    shifted (before + k) gap (n + k) = shifted before gap n + k := by
  unfold shifted
  split <;> split <;> omega

theorem map_shifted_add (found : Option Nat) (before gap k : Nat) :
    (found.map (shifted before gap)).map (· + k) =
      (found.map (· + k)).map (shifted (before + k) gap) := by
  rw [Option.map_map, Option.map_map]
  congr 1
  funext n
  exact (shifted_add before gap n k).symm

theorem shifted_of_le {before n : Nat} (known : n ≤ before) (gap : Nat) :
    shifted before gap n = n := if_pos known

theorem shifted_of_lt {before n : Nat} (beyond : before < n) (gap : Nat) :
    shifted before gap n = n + gap := if_neg (by omega)

/-- What the readers find in a name, a mark and the last lines, they find with the interlude
after the mark too. -/
structure ReadsAround (name line others last : List Char) : Prop where
  content : ∀ {mark}, IsMark mark →
    contentLength mark (name ++ backtick :: (line ++ (others ++ last))) =
      (contentLength mark (name ++ backtick :: last)).map
        (shifted name.length (line.length + others.length))
  closing : ∀ {lead opening closing depth}, Interpolates lead opening closing → 0 < depth →
    closingIndex (some opening) (some closing) depth
        (name ++ backtick :: (line ++ (others ++ last))) =
      (closingIndex (some opening) (some closing) depth (name ++ backtick :: last)).map
        (shifted name.length (line.length + others.length))

variable {name line others last : List Char}

section Interlude

variable (interlude : Interlude line others last)

include interlude

theorem Interlude.quiet_mark : ∀ c ∈ backtick :: (line ++ (others ++ last)), isQuiet c = true :=
  List.forall_mem_cons.mpr ⟨by decide, interlude.quiet⟩

theorem Interlude.quiet_last : ∀ c ∈ backtick :: last, isQuiet c = true := by
  refine List.forall_mem_cons.mpr ⟨by decide, fun c member => interlude.quiet c ?_⟩
  exact List.mem_append_right _ (List.mem_append_right _ member)

theorem Interlude.break_mem_last : '\n' ∈ last :=
  List.mem_of_mem_head? interlude.ends

theorem Interlude.break_mem : '\n' ∈ line ++ (others ++ last) :=
  List.mem_append_right _ (List.mem_of_mem_head? interlude.starts)

/-- The contents of a literal that reach the mark reach the end of their line, or of the text. -/
theorem Interlude.contentLength_tail {mark : List Char} (isMark : IsMark mark) :
    contentLength mark (line ++ (others ++ last)) =
      (contentLength mark last).map (· + (line.length + others.length)) := by
  have quietLast := fun c member => interlude.quiet_last c (List.mem_cons_of_mem _ member)
  rw [contentLength_quiet isMark interlude.quiet, contentLength_quiet isMark quietLast]
  simp only [interlude.break_mem, interlude.break_mem_last, and_true]
  split
  · rfl
  · rw [Option.map_some, List.length_append, List.length_append]
    congr 1
    omega

theorem Interlude.contentLength_mark {mark : List Char} (isMark : IsMark mark) :
    contentLength mark (backtick :: (line ++ (others ++ last))) =
      (contentLength mark (backtick :: last)).map (shifted 0 (line.length + others.length)) := by
  have breaks := List.mem_cons_of_mem backtick interlude.break_mem
  have breaksLast := List.mem_cons_of_mem backtick interlude.break_mem_last
  rw [contentLength_quiet isMark interlude.quiet_mark,
    contentLength_quiet isMark interlude.quiet_last]
  simp only [breaks, breaksLast, and_true]
  split
  · rfl
  · rw [Option.map_some, shifted_of_lt (by simp)]
    simp only [List.length_cons, List.length_append]
    congr 1
    omega

/-- The contents of a literal that are one character and the mark, and go on. -/
theorem Interlude.contentLength_single {mark : List Char} (isMark : IsMark mark) {c : Char}
    (noBreak : c ≠ '\n') :
    contentLength mark (c :: backtick :: (line ++ (others ++ last))) =
      (contentLength mark (c :: backtick :: last)).map
        (shifted 1 (line.length + others.length)) := by
  have noQuote : isQuote backtick = false := by decide
  have same := isMark.isPrefixOf_append_cons noQuote [c] (line ++ (others ++ last)) last
  have literal : ¬ (c = '\n' ∧ mark = ['\'']) := fun stray => noBreak stray.1
  have noCode : ¬ Interpolates c backtick '\x7d' := by
    intro starts
    cases starts
  rw [List.singleton_append, List.singleton_append] at same
  cases ends : mark.isPrefixOf (c :: backtick :: last) with
  | true =>
      have short : mark.length ≤ 1 := @IsMark.length_le mark isMark backtick noQuote [c] last ends
      rw [Source.contentLength_mark ends, Source.contentLength_mark (same.trans ends),
        Option.map_some, shifted_of_le short]
  | false =>
      by_cases escape : c = '\\'
      · subst escape
        rw [contentLength_escape (same.trans ends) (by decide),
          contentLength_escape ends (by decide), interlude.contentLength_tail isMark]
        cases contentLength mark last with
        | none => rfl
        | some k =>
            simp only [Option.map_some]
            rw [shifted_of_lt (by omega), Nat.add_right_comm]
      · rw [contentLength_char (same.trans ends) escape noCode literal,
          contentLength_char ends escape noCode literal, interlude.contentLength_mark isMark,
          map_shifted_add]

theorem Interlude.closingIndex_mark {lead opening closing : Char}
    (starts : Interpolates lead opening closing) {depth : Nat} (positive : 0 < depth) :
    closingIndex (some opening) (some closing) depth (backtick :: (line ++ (others ++ last))) =
      (closingIndex (some opening) (some closing) depth (backtick :: last)).map
        (shifted 0 (line.length + others.length)) := by
  have mark : ∀ c ∈ [backtick], Inert (some opening) (some closing) c := by
    cases starts <;> simp [Inert, isQuote, backtick]
  have passed (rest : List Char) : closingIndex (some opening) (some closing) depth
      (backtick :: rest) = _ := closingIndex_inert mark rest
  rw [passed, passed, interlude.levelLine.passed starts positive,
    interlude.levelOthers.passed starts positive]
  cases closingIndex (some opening) (some closing) depth last with
  | none => rfl
  | some n =>
      simp only [Option.map_some, List.length_singleton]
      rw [shifted_of_lt (by omega)]
      congr 1
      omega

end Interlude

/-! ## Going on from an offset -/

theorem drop_append_mark {n : Nat} (known : n ≤ name.length) (rest : List Char) :
    (name ++ rest).drop n = name.drop n ++ rest := List.drop_append_of_le_length known

theorem drop_beyond_mark {n : Nat} (beyond : name.length < n) (line others last : List Char) :
    (name ++ backtick :: (line ++ (others ++ last))).drop (n + (line.length + others.length)) =
      (name ++ backtick :: last).drop n := by
  obtain ⟨k, rfl⟩ : ∃ k, n = name.length + (k + 1) := ⟨n - name.length - 1, by omega⟩
  have more : name.length + (k + 1) + (line.length + others.length) =
      name.length + (k + (line.length + others.length) + 1) := by omega
  have whole : line.length + others.length = (line ++ others).length := List.length_append.symm
  rw [more, List.drop_length_add_append, List.drop_length_add_append, List.drop_succ_cons,
    List.drop_succ_cons, ← List.append_assoc, Nat.add_comm k, whole, List.drop_length_add_append]

/-- A reader that goes on after some of the text, in the name or beyond the mark. -/
theorem map_shifted_of_drop {read : List Char → Option Nat} {n : Nat}
    (inside : n ≤ name.length →
      read (name.drop n ++ backtick :: (line ++ (others ++ last))) =
        (read (name.drop n ++ backtick :: last)).map
          (shifted (name.drop n).length (line.length + others.length))) :
    (read ((name ++ backtick :: (line ++ (others ++ last))).drop
        (shifted name.length (line.length + others.length) n))).map
          (· + shifted name.length (line.length + others.length) n) =
      ((read ((name ++ backtick :: last).drop n)).map (· + n)).map
        (shifted name.length (line.length + others.length)) := by
  by_cases known : n ≤ name.length
  · have whole : name.length = name.length - n + n := by omega
    rw [shifted_of_le known, drop_append_mark known, drop_append_mark known, inside known,
      List.length_drop, Option.map_map, Option.map_map]
    congr 1
    funext k
    rw [Function.comp, Function.comp, ← shifted_add, ← whole]
  · have beyond : name.length < n := by omega
    rw [shifted_of_lt beyond, drop_beyond_mark beyond, Option.map_map]
    congr 1
    funext k
    rw [Function.comp, shifted_of_lt (by omega), Nat.add_assoc]

/-! ## Comments -/

theorem blockLength_interlude (interlude : Interlude line others last) (depth : Nat) :
    blockLength depth (name ++ backtick :: (line ++ (others ++ last))) =
      shifted name.length (line.length + others.length)
        (blockLength depth (name ++ backtick :: last)) := by
  -- two characters are read at a time, so the induction is on the length
  induction size : name.length using Nat.strong_induction_on generalizing name depth with
  | _ n ih =>
    subst size
    match name with
    | [] =>
        rw [List.nil_append, List.nil_append, blockLength_quiet interlude.quiet_mark,
          blockLength_quiet interlude.quiet_last, shifted_of_lt (by simp)]
        simp only [List.length_cons, List.length_append]
        omega
    | [c] =>
        have later := @ih 0 Nat.one_pos [] depth rfl
        have noOpening : ¬ (c = '/' ∧ backtick = '*') := fun opens => absurd opens.2 (by decide)
        have noClosing : ¬ (c = '*' ∧ backtick = '/') := fun closes => absurd closes.2 (by decide)
        rw [List.nil_append, List.nil_append] at later
        rw [List.singleton_append, List.singleton_append, blockLength_cons_cons,
          blockLength_cons_cons, if_neg noOpening, if_neg noClosing, if_neg noOpening,
          if_neg noClosing, later, List.length_singleton, ← shifted_add]
    | c :: d :: name =>
        simp only [List.cons_append, List.length_cons] at ih ⊢
        rw [blockLength_cons_cons, blockLength_cons_cons]
        split
        · rw [ih name.length (by omega) _ rfl, ← shifted_add]
        · split
          · split
            · rw [shifted_of_le (by omega)]
            · rw [ih name.length (by omega) _ rfl, ← shifted_add]
          · have later := @ih (name.length + 1) (by omega) (d :: name) depth rfl
            rw [List.cons_append, List.cons_append] at later
            rw [later, shifted_add]

theorem lineLength_of_noBreak {front : List Char} (noBreak : '\n' ∉ front) {rest : List Char}
    (starts : rest.head? = some '\n') : lineLength (front ++ rest) = front.length + 1 := by
  induction front with
  | nil =>
      obtain ⟨after, rfl⟩ := List.head?_eq_some_iff.mp starts
      rfl
  | cons c front ih =>
      rw [List.mem_cons, not_or] at noBreak
      rw [List.cons_append, lineLength, if_neg (Ne.symm noBreak.1), ih noBreak.2,
        List.length_cons]

/-- A search that skips a line comment may as well stop before the line break. -/
theorem closingIndex_lineLength {opening closing : Option Char} {depth : Nat}
    {front : List Char} (noBreak : '\n' ∉ front) {rest : List Char}
    (starts : rest.head? = some '\n')
    (inert : Inert opening closing '\n') :
    (closingIndex opening closing depth
        ((front ++ rest).drop (lineLength (front ++ rest)))).map
          (· + lineLength (front ++ rest)) =
      (closingIndex opening closing depth rest).map (· + front.length) := by
  rw [lineLength_of_noBreak noBreak starts]
  obtain ⟨after, rfl⟩ := List.head?_eq_some_iff.mp starts
  have passed : closingIndex opening closing depth ('\n' :: after) = _ :=
    closingIndex_inert (List.forall_mem_singleton.mpr inert) after
  rw [List.drop_length_add_append, passed, map_add_map_add, List.length_singleton, Nat.add_comm 1]
  rfl

theorem commentLength_mark {c : Char} (noLine : ¬ (c = '/' ∧ name.head? = some '/'))
    (noBlock : ¬ (c = '/' ∧ name.head? = some '*')) (rest : List Char) :
    commentLength (c :: (name ++ backtick :: rest)) = 0 := by
  cases name with
  | nil =>
      have noOpening : ¬ (c = '/' ∧ backtick = '/') := fun opens => absurd opens.2 (by decide)
      have noStar : ¬ (c = '/' ∧ backtick = '*') := fun opens => absurd opens.2 (by decide)
      rw [List.nil_append, commentLength_cons_cons, if_neg noOpening, if_neg noStar]
  | cons d name =>
      rw [List.head?_cons, Option.some.injEq] at noLine noBlock
      rw [List.cons_append, commentLength_cons_cons, if_neg noLine, if_neg noBlock]

/-! ## One reader after the other -/

/-- The mark is no delimiter, so no search ends at it. -/
theorem ne_length_of_closingIndex {lead opening closing : Char}
    (starts : Interpolates lead opening closing) {depth n : Nat} {rest : List Char}
    (found : closingIndex (some opening) (some closing) depth (name ++ backtick :: rest) = some n) :
    n ≠ name.length := by
  rintro rfl
  obtain ⟨c, delimiter, here⟩ := closingIndex_getElem? found
  rw [List.getElem?_append_right (Nat.le_refl _), Nat.sub_self, List.getElem?_cons_zero,
    Option.some.injEq] at here
  rw [← here, Option.some.injEq] at delimiter
  cases starts <;> exact absurd delimiter (by decide)

theorem shifted_succ {before n : Nat} (apart : n ≠ before) (gap : Nat) :
    shifted before gap n + 1 = shifted before gap (n + 1) := by
  unfold shifted
  split <;> split <;> omega

theorem tailLength_interlude (around : ∀ n, ReadsAround (name.drop n) line others last) {c : Char}
    (quote : isQuote c = true) :
    tailLength c (name ++ backtick :: (line ++ (others ++ last))) =
      shifted name.length (line.length + others.length)
        (tailLength c (name ++ backtick :: last)) := by
  have noQuote : isQuote backtick = false := by decide
  have same := IsMark.triple.isPrefixOf_append_cons noQuote (c :: name)
    (line ++ (others ++ last)) last
  rw [List.cons_append, List.cons_append] at same
  rw [tailLength.eq_def, tailLength.eq_def, same]
  split
  · rename_i triple
    rw [← List.cons_append] at triple
    have long : 2 ≤ name.length := Nat.le_of_succ_le_succ (IsMark.triple.length_le noQuote triple)
    rw [drop_append_mark long, drop_append_mark long, (around 2).content .triple]
    cases contentLength tripleQuote (name.drop 2 ++ backtick :: last) with
    | none => exact (shifted_of_le long _).symm
    | some k =>
        have whole : name.length - 2 + 2 = name.length := Nat.sub_add_cancel long
        rw [Option.map_some, Option.getD_some, Option.getD_some, List.length_drop, ← shifted_add,
          whole]
  · have content := (around 0).content (.single quote)
    rw [List.drop_zero] at content
    rw [content]
    cases contentLength [c] (name ++ backtick :: last) with
    | none => exact (shifted_of_le (Nat.zero_le _) _).symm
    | some k => rfl

section Comments

variable (interlude : Interlude line others last) {lead opening closing : Char}
  (starts : Interpolates lead opening closing) {depth : Nat} (positive : 0 < depth)

include interlude starts positive

theorem closingIndex_lineComment (noBreak : '\n' ∉ name) :
    closingIndex (some opening) (some closing) depth
        ('/' :: '/' :: name ++ backtick :: (line ++ (others ++ last))) =
      (closingIndex (some opening) (some closing) depth
        ('/' :: '/' :: name ++ backtick :: last)).map
          (shifted (name.length + 2) (line.length + others.length)) := by
  obtain ⟨first, second⟩ := starts.significant
  have inert : Inert (some opening) (some closing) '\n' := by
    cases starts <;> simp [Inert, isQuote]
  have passed {front rest : List Char} (noBreak : '\n' ∉ front) (next : rest.head? = some '\n') :
      closingIndex (some opening) (some closing) depth ('/' :: '/' :: (front ++ rest)) =
        (closingIndex (some opening) (some closing) depth rest).map (· + (front.length + 2)) := by
    have comment : commentLength ('/' :: '/' :: (front ++ rest)) =
        lineLength (front ++ rest) + 1 + 1 := rfl
    rw [closingIndex_comment first.solid second.solid comment, List.drop_succ_cons, Nat.add_assoc,
      ← map_add_map_add, closingIndex_lineLength noBreak next inert, map_add_map_add]
  have front : '\n' ∉ name ++ [backtick] := by simp [noBreak, backtick]
  have longFront : '\n' ∉ name ++ backtick :: line := by
    simp [noBreak, backtick, interlude.noBreak]
  have split : name ++ backtick :: (line ++ (others ++ last)) =
      name ++ backtick :: line ++ (others ++ last) := by simp
  have splitLast : name ++ backtick :: last = name ++ [backtick] ++ last := by simp
  rw [List.cons_append, List.cons_append, List.cons_append, List.cons_append, split, splitLast,
    passed longFront interlude.starts, passed front interlude.ends,
    interlude.levelOthers.passed starts positive]
  cases closingIndex (some opening) (some closing) depth last with
  | none => rfl
  | some n =>
      simp only [Option.map_some, List.length_append, List.length_cons, List.length_nil]
      rw [shifted_of_lt (by omega)]
      congr 1
      omega

theorem closingIndex_blockComment (around : ∀ n, ReadsAround (name.drop n) line others last) :
    closingIndex (some opening) (some closing) depth
        ('/' :: '*' :: name ++ backtick :: (line ++ (others ++ last))) =
      (closingIndex (some opening) (some closing) depth
        ('/' :: '*' :: name ++ backtick :: last)).map
          (shifted (name.length + 2) (line.length + others.length)) := by
  obtain ⟨first, second⟩ := starts.significant
  have passed (text : List Char) :
      closingIndex (some opening) (some closing) depth ('/' :: '*' :: text) =
        ((closingIndex (some opening) (some closing) depth (text.drop (blockLength 1 text))).map
          (· + blockLength 1 text)).map (· + 2) := by
    have comment : commentLength ('/' :: '*' :: text) = blockLength 1 text + 1 + 1 := rfl
    rw [closingIndex_comment first.solid second.solid comment, List.drop_succ_cons,
      map_add_map_add]
  have rest := @map_shifted_of_drop name line others last
    (closingIndex (some opening) (some closing) depth) (blockLength 1 (name ++ backtick :: last))
    fun _ => (around _).closing starts positive
  rw [List.cons_append, List.cons_append, List.cons_append, List.cons_append, passed, passed,
    blockLength_interlude interlude, rest, map_shifted_add]

end Comments

/-- Contents that start with interpolated code. -/
theorem contentLength_code {mark : List Char} (isMark : IsMark mark) {c opening closing : Char}
    (starts : Interpolates c opening closing)
    (goesOn : mark.isPrefixOf (c :: opening :: (name ++ backtick :: last)) = false)
    (goesOnToo : mark.isPrefixOf
      (c :: opening :: (name ++ backtick :: (line ++ (others ++ last)))) = false)
    (inner : ReadsAround name line others last)
    (around : ∀ n, ReadsAround (name.drop (n + 1)) line others last) :
    contentLength mark (c :: opening :: (name ++ backtick :: (line ++ (others ++ last)))) =
      (contentLength mark (c :: opening :: (name ++ backtick :: last))).map
        (shifted (name.length + 1 + 1) (line.length + others.length)) := by
  have closed := inner.closing starts Nat.one_pos
  cases found : closingIndex (some opening) (some closing) 1 (name ++ backtick :: last) with
  | none =>
      rw [found, Option.map_none] at closed
      rw [contentLength_unclosed goesOn starts found,
        contentLength_unclosed goesOnToo starts closed, Option.map_some]
      simp only [List.length_append, List.length_cons]
      rw [shifted_of_lt (by omega)]
      congr 1
      omega
  | some n =>
      rw [found, Option.map_some] at closed
      have beyond := shifted_succ (ne_length_of_closingIndex starts found)
        (line.length + others.length)
      have rest := @map_shifted_of_drop name line others last (contentLength mark) (n + 1)
        fun _ => (around n).content isMark
      have skip (k : Nat) : (· + (k + 3)) = (· + 2) ∘ (· + (k + 1)) := by
        funext m
        simp only [Function.comp]
        omega
      rw [contentLength_interpolation goesOn starts found,
        contentLength_interpolation goesOnToo starts closed, skip, skip, ← Option.map_map,
        ← Option.map_map, beyond, rest, map_shifted_add]

section Shorter

variable (interlude : Interlude line others last) (noBreak : '\n' ∉ name)
  (shorter : ∀ other : List Char, other.length < name.length → '\n' ∉ other →
    ReadsAround other line others last)

include interlude noBreak shorter

theorem contentLength_interlude {mark : List Char} (isMark : IsMark mark) :
    contentLength mark (name ++ backtick :: (line ++ (others ++ last))) =
      (contentLength mark (name ++ backtick :: last)).map
        (shifted name.length (line.length + others.length)) := by
  have noQuote : isQuote backtick = false := by decide
  have same := isMark.isPrefixOf_append_cons noQuote name (line ++ (others ++ last)) last
  have short := @IsMark.length_le mark isMark backtick noQuote name last
  match name with
  | [] => exact interlude.contentLength_mark isMark
  | [c] => exact interlude.contentLength_single isMark (List.ne_of_not_mem_cons noBreak).symm
  | c :: d :: name =>
      simp only [List.cons_append, List.length_cons, List.mem_cons, not_or]
        at same short noBreak shorter ⊢
      have inner := shorter name (by omega) noBreak.2.2
      cases contentStep mark (c :: d :: (name ++ backtick :: last)) with
      | ends ends =>
          rw [contentLength_mark ends, contentLength_mark (same.trans ends), Option.map_some,
            shifted_of_le (short ends)]
      | stray apostrophe => exact absurd rfl noBreak.1
      | @code _ _ closing _ goesOn starts =>
          exact contentLength_code isMark starts goesOn (same.trans goesOn) inner fun n =>
            shorter (name.drop (n + 1)) (by rw [List.length_drop]; omega)
              fun member => noBreak.2.2 (List.mem_of_mem_drop member)
      | escape goesOn other =>
          rw [contentLength_escape goesOn other, contentLength_escape (same.trans goesOn) other,
            inner.content isMark, map_shifted_add]
      | char goesOn noEscape noCode literal =>
          have later := (shorter (d :: name) (by simp) (by simp [noBreak])).content isMark
          rw [List.cons_append, List.cons_append] at later
          rw [contentLength_char goesOn noEscape noCode literal,
            contentLength_char (same.trans goesOn) noEscape noCode literal, later,
            map_shifted_add]
          rfl

theorem closingIndex_interlude {lead opening closing : Char}
    (starts : Interpolates lead opening closing) {depth : Nat} (positive : 0 < depth) :
    closingIndex (some opening) (some closing) depth
        (name ++ backtick :: (line ++ (others ++ last))) =
      (closingIndex (some opening) (some closing) depth (name ++ backtick :: last)).map
        (shifted name.length (line.length + others.length)) := by
  match name with
  | [] => exact interlude.closingIndex_mark starts positive
  | c :: name =>
      simp only [List.cons_append, List.length_cons, List.mem_cons, not_or] at noBreak shorter ⊢
      have around (n : Nat) : ReadsAround (name.drop n) line others last :=
        shorter (name.drop n) (by rw [List.length_drop]; omega)
          fun member => noBreak.2 (List.mem_of_mem_drop member)
      cases quote : isQuote c with
      | true =>
          have rest := @map_shifted_of_drop name line others last
            (closingIndex (some opening) (some closing) depth)
            (tailLength c (name ++ backtick :: last)) fun _ => (around _).closing starts positive
          rw [closingIndex_literal quote, closingIndex_literal quote,
            tailLength_interlude around quote, ← map_add_map_add, rest, map_shifted_add,
            map_add_map_add]
      | false =>
          by_cases lineComment : c = '/' ∧ name.head? = some '/'
          · obtain ⟨rfl, next⟩ := lineComment
            obtain ⟨name, rfl⟩ := List.head?_eq_some_iff.mp next
            exact closingIndex_lineComment interlude starts positive
              fun member => noBreak.2 (List.mem_cons_of_mem _ member)
          · by_cases blockComment : c = '/' ∧ name.head? = some '*'
            · obtain ⟨rfl, next⟩ := blockComment
              obtain ⟨name, rfl⟩ := List.head?_eq_some_iff.mp next
              exact closingIndex_blockComment interlude starts positive
                fun n => around (n + 1)
            · have none (rest : List Char) := commentLength_mark lineComment blockComment rest
              rcases closingIndex_char quote (some opening) (some closing) depth with
                ⟨-, ends⟩ | ⟨level, deeper, goesOn⟩
              · rw [ends _ (none _), ends _ (none _), Option.map_some,
                  shifted_of_le (Nat.zero_le _)]
              · have alike := (around 0).closing starts (deeper positive)
                rw [List.drop_zero] at alike
                rw [goesOn _ (none _), goesOn _ (none _), alike, map_shifted_add]

end Shorter

theorem readsAround (interlude : Interlude line others last) (noBreak : '\n' ∉ name) :
    ReadsAround name line others last := by
  induction size : name.length using Nat.strong_induction_on generalizing name with
  | _ length ih =>
    subst size
    have shorter (other : List Char) (less : other.length < name.length) (noBreak : '\n' ∉ other) :
        ReadsAround other line others last := ih other.length less noBreak rfl
    constructor
    · exact contentLength_interlude interlude noBreak shorter
    · intro lead opening closing depth starts positive
      exact closingIndex_interlude interlude noBreak shorter starts positive

end DartBindings.Source
