import DartBindings.Text.Character
import Mathlib.Data.List.DropRight
import Mathlib.Data.List.TakeWhile

/-!
What is left of a text between blanks, and without blanks.
-/

set_option autoImplicit false

namespace DartBindings.Text

/-- A text with no blanks at its ends, and not empty. -/
structure IsSolid (text : List Char) : Prop where
  first : ∃ c rest, text = c :: rest ∧ isBlank c = false
  last : ∃ front c, text = front ++ [c] ∧ isBlank c = false

theorem IsSolid.nonempty {text : List Char} (solid : IsSolid text) : text ≠ [] := by
  obtain ⟨c, rest, rfl, _⟩ := solid.first
  exact List.cons_ne_nil c rest

theorem isSolid_of_forall {text : List Char} (nonempty : text ≠ [])
    (solid : ∀ c ∈ text, isBlank c = false) : IsSolid text := by
  constructor
  · obtain ⟨c, rest, rfl⟩ := List.exists_cons_of_ne_nil nonempty
    exact ⟨c, rest, rfl, solid c List.mem_cons_self⟩
  · refine ⟨text.dropLast, text.getLast nonempty, ?_, solid _ (List.getLast_mem nonempty)⟩
    exact (List.dropLast_concat_getLast nonempty).symm

/-- Only the ends matter. -/
theorem IsSolid.append {first last : List Char} (starts : IsSolid first) (between : List Char)
    (ends : IsSolid last) : IsSolid (first ++ (between ++ last)) := by
  constructor
  · obtain ⟨c, rest, rfl, solid⟩ := starts.first
    exact ⟨c, rest ++ (between ++ last), rfl, solid⟩
  · obtain ⟨front, c, rfl, solid⟩ := ends.last
    exact ⟨first ++ (between ++ front), c, by simp, solid⟩

theorem isSolid_singleton {c : Char} (solid : isBlank c = false) : IsSolid [c] :=
  ⟨⟨c, [], rfl, solid⟩, ⟨[], c, rfl, solid⟩⟩

theorem dropEndWhile_append {p : Char → Bool} {text after : List Char}
    (dropped : ∀ c ∈ after, p c = true) :
    dropEndWhile p (text ++ after) = dropEndWhile p text := by
  rw [dropEndWhile, List.reverse_append, List.dropWhile_append_of_pos, dropEndWhile]
  intro c member
  exact dropped c (List.mem_reverse.mp member)

theorem dropEndWhile_concat {p : Char → Bool} {c : Char} (kept : p c = false)
    (front : List Char) : dropEndWhile p (front ++ [c]) = front ++ [c] := by
  simp [dropEndWhile, kept]

theorem strip_between {before text after : List Char}
    (blankBefore : ∀ c ∈ before, isBlank c = true) (solid : IsSolid text)
    (blankAfter : ∀ c ∈ after, isBlank c = true) : strip (before ++ (text ++ after)) = text := by
  have start : (before ++ (text ++ after)).dropWhile isBlank = text ++ after := by
    obtain ⟨c, rest, rfl, first⟩ := solid.first
    rw [List.dropWhile_append_of_pos blankBefore, List.cons_append,
      List.dropWhile_cons_of_neg (by simp [first])]
  obtain ⟨front, c, rfl, last⟩ := solid.last
  rw [strip, start, dropEndWhile_append blankAfter, dropEndWhile_concat last]

theorem strip_of_isSolid {text : List Char} (solid : IsSolid text) : strip text = text := by
  have between : strip ([] ++ (text ++ [])) = text := strip_between (by simp) solid (by simp)
  rwa [List.nil_append, List.append_nil] at between

theorem mem_dropWhile {p : Char → Bool} {text : List Char} {c : Char} (member : c ∈ text)
    (kept : p c = false) : c ∈ text.dropWhile p := by
  rw [← List.takeWhile_append_dropWhile (p := p) (l := text)] at member
  rcases List.mem_append.mp member with dropped | inside
  · rw [List.mem_takeWhile_imp dropped] at kept
    cases kept
  · exact inside

theorem mem_dropEndWhile {p : Char → Bool} {text : List Char} {c : Char} (member : c ∈ text)
    (kept : p c = false) : c ∈ dropEndWhile p text :=
  List.mem_reverse.mpr (mem_dropWhile (List.mem_reverse.mpr member) kept)

theorem mem_strip {text : List Char} {c : Char} (member : c ∈ text) (solid : isBlank c = false) :
    c ∈ strip text :=
  mem_dropEndWhile (mem_dropWhile member solid) solid

theorem dropEndWhile_eq_nil_iff {p : Char → Bool} {text : List Char} :
    dropEndWhile p text = [] ↔ ∀ c ∈ text, p c = true := by
  simp [dropEndWhile, List.dropWhile_eq_nil_iff]

theorem strip_eq_nil_iff {text : List Char} :
    strip text = [] ↔ ∀ c ∈ text, isBlank c = true := by
  rw [strip, dropEndWhile_eq_nil_iff]
  constructor
  · intro blank c member
    cases solid : isBlank c with
    | true => rfl
    | false =>
        have left := blank c (mem_dropWhile member solid)
        rw [solid] at left
        cases left
  · intro blank c member
    exact blank c ((List.dropWhile_sublist isBlank).subset member)

theorem dropEndWhile_append_of_exists {p : Char → Bool} {last : List Char}
    (kept : ∃ c ∈ last, p c = false) (text : List Char) :
    dropEndWhile p (text ++ last) = text ++ dropEndWhile p last := by
  have some : last.reverse.dropWhile p ≠ [] := by
    obtain ⟨c, member, solid⟩ := kept
    exact List.ne_nil_of_mem (mem_dropWhile (List.mem_reverse.mpr member) solid)
  rw [dropEndWhile, dropEndWhile, List.reverse_append, List.dropWhile_append,
    if_neg (by simpa using some), List.reverse_append, List.reverse_reverse]

theorem dropEndWhile_cons {p : Char → Bool} {c : Char} (kept : p c = false) (rest : List Char) :
    dropEndWhile p (c :: rest) = c :: dropEndWhile p rest := by
  by_cases some : ∃ d ∈ rest, p d = false
  · exact dropEndWhile_append_of_exists some [c]
  · have dropped : ∀ d ∈ rest, p d = true := fun d member =>
      eq_true_of_ne_false fun other => some ⟨d, member, other⟩
    have single := dropEndWhile_concat kept []
    rw [dropEndWhile_eq_nil_iff.mpr dropped, ← List.singleton_append, dropEndWhile_append dropped]
    exact single

theorem dropEndWhile_dropEndWhile (p : Char → Bool) (text : List Char) :
    dropEndWhile p (dropEndWhile p text) = dropEndWhile p text :=
  List.rdropWhile_idempotent p text

/-- What stands between blanks and a mark keeps its text. -/
theorem strip_marked {before text after : List Char} {mark : Char}
    (blank : ∀ c ∈ before, isBlank c = true)
    (first : ∃ c rest, text = c :: rest ∧ isBlank c = false) (solid : isBlank mark = false) :
    strip (before ++ (text ++ mark :: after)) = text ++ mark :: dropEndWhile isBlank after := by
  obtain ⟨c, rest, rfl, starts⟩ := first
  rw [strip, List.dropWhile_append_of_pos blank, List.cons_append,
    List.dropWhile_cons_of_neg (by simp [starts]), ← List.cons_append,
    dropEndWhile_append_of_exists ⟨mark, List.mem_cons_self, solid⟩, dropEndWhile_cons solid]

theorem dropEndWhile_of_getLast? {p : Char → Bool} {text : List Char}
    (kept : ∀ c ∈ text.getLast?, p c = false) : dropEndWhile p text = text := by
  rw [← List.head?_reverse] at kept
  rw [dropEndWhile]
  cases backwards : text.reverse with
  | nil => exact (List.reverse_eq_nil_iff.mp backwards).symm
  | cons c rest =>
      rw [backwards] at kept
      rw [List.dropWhile_cons_of_neg (by simp [kept c rfl]), ← backwards, List.reverse_reverse]

/-- What is left between the blanks is solid, if anything is. -/
theorem isSolid_strip {text : List Char} (some : strip text ≠ []) : IsSolid (strip text) := by
  have start : text.dropWhile isBlank ≠ [] := by
    intro none
    rw [strip, none] at some
    exact some rfl
  constructor
  · obtain ⟨c, rest, front⟩ := List.exists_cons_of_ne_nil start
    have solid := List.head_dropWhile_not isBlank start
    simp only [front, List.head_cons] at solid
    exact ⟨c, dropEndWhile isBlank rest, by rw [strip, front, dropEndWhile_cons solid], solid⟩
  · have last : ¬ isBlank ((strip text).getLast some) = true := List.rdropWhile_last_not _ _ some
    exact ⟨(strip text).dropLast, (strip text).getLast some,
      (List.dropLast_concat_getLast some).symm, eq_false_of_ne_true last⟩

theorem isSolid_strip_iff {text : List Char} :
    IsSolid (strip text) ↔ ∃ c ∈ text, isBlank c = false := by
  have blank := not_congr (@strip_eq_nil_iff text)
  simp only [not_forall, exists_prop, Bool.not_eq_true] at blank
  rw [← blank]
  exact ⟨IsSolid.nonempty, isSolid_strip⟩

theorem strip_strip (text : List Char) : strip (strip text) = strip text := by
  by_cases none : strip text = []
  · rw [none]
    rfl
  · exact strip_of_isSolid (isSolid_strip none)

/-- What is dropped at the end. -/
theorem dropEndWhile_split (p : Char → Bool) (text : List Char) :
    ∃ after, text = dropEndWhile p text ++ after ∧ ∀ c ∈ after, p c = true := by
  refine ⟨(text.reverse.takeWhile p).reverse, ?_, fun c member => ?_⟩
  · have whole := congrArg List.reverse (@List.takeWhile_append_dropWhile _ p text.reverse)
    rw [List.reverse_append, List.reverse_reverse] at whole
    exact whole.symm
  · exact List.mem_takeWhile_imp (List.mem_reverse.mp member)

/-- Blanks in the middle of a text are kept, as far as they are in the middle. -/
theorem strip_gap (first last : List Char) :
    (∃ stripped, ∀ gap : List Char, (∀ c ∈ gap, isBlank c = true) →
        strip (first ++ (gap ++ last)) = stripped) ∨
      (first.dropWhile isBlank ≠ [] ∧ (∃ c ∈ last, isBlank c = false) ∧
        ∀ gap : List Char, strip (first ++ (gap ++ last)) =
          first.dropWhile isBlank ++ (gap ++ dropEndWhile isBlank last)) := by
  by_cases none : first.dropWhile isBlank = []
  · have blank := List.dropWhile_eq_nil_iff.mp none
    refine .inl ⟨strip last, fun gap gapBlank => ?_⟩
    rw [strip, List.dropWhile_append_of_pos blank, List.dropWhile_append_of_pos gapBlank, strip]
  · have start (rest : List Char) :
        (first ++ rest).dropWhile isBlank = first.dropWhile isBlank ++ rest := by
      rw [List.dropWhile_append, if_neg (by simpa using none)]
    by_cases solid : ∃ c ∈ last, isBlank c = false
    · refine .inr ⟨none, solid, fun gap => ?_⟩
      have later : ∃ c ∈ gap ++ last, isBlank c = false := by
        obtain ⟨c, member, kept⟩ := solid
        exact ⟨c, List.mem_append_right gap member, kept⟩
      rw [strip, start, dropEndWhile_append_of_exists later, dropEndWhile_append_of_exists solid]
    · refine .inl ⟨dropEndWhile isBlank (first.dropWhile isBlank), fun gap blank => ?_⟩
      rw [strip, start, dropEndWhile_append]
      intro c member
      rcases List.mem_append.mp member with inside | later
      · exact blank c inside
      · exact (Bool.not_eq_false _).mp fun kept => solid ⟨c, later, kept⟩

/-! ## Blanks inside -/

theorem squeeze_append (text more : List Char) :
    squeeze (text ++ more) = squeeze text ++ squeeze more :=
  List.filter_append ..

theorem squeeze_of_blank {gap : List Char} (blank : ∀ c ∈ gap, isBlank c = true) :
    squeeze gap = [] := by
  rw [squeeze, List.filter_eq_nil_iff]
  intro c member
  simp [blank c member]

theorem squeeze_of_solid {text : List Char} (solid : ∀ c ∈ text, isBlank c = false) :
    squeeze text = text := by
  rw [squeeze, List.filter_eq_self]
  intro c member
  rw [solid c member]
  rfl

/-- What is stripped goes with the other blanks. -/
theorem squeeze_strip (text : List Char) : squeeze (strip text) = squeeze text := by
  obtain ⟨after, ended, blankAfter⟩ := dropEndWhile_split isBlank (text.dropWhile isBlank)
  have started := @List.takeWhile_append_dropWhile _ isBlank text
  have blankBefore : ∀ c ∈ text.takeWhile isBlank, isBlank c = true :=
    fun c member => List.mem_takeWhile_imp member
  calc squeeze (strip text)
      = squeeze (strip text) ++ squeeze after := by
        rw [squeeze_of_blank blankAfter, List.append_nil]
    _ = squeeze (text.dropWhile isBlank) := by rw [← squeeze_append, strip, ← ended]
    _ = squeeze (text.takeWhile isBlank) ++ squeeze (text.dropWhile isBlank) := by
        rw [squeeze_of_blank blankBefore, List.nil_append]
    _ = squeeze text := by rw [← squeeze_append, started]

end DartBindings.Text
