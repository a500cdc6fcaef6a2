import DartBindings.Proofs.Source.Locality
import DartBindings.Source.Pieces

/-!
Groups in context. A body that is closed on its own is closed at the same place wherever it stands:
the search looks ahead for comments, marks of literals and line ends, but never beyond the
delimiter that it finds.
-/

set_option autoImplicit false

namespace DartBindings.Source

open Text

variable {depth n : Nat}

section Search

variable {opening closing : Option Char} {known : List Char}

/-- What is found in a text is found in it whatever comes after it. -/
theorem closingIndex_before (first : Significant opening) (last : Significant closing)
    (found : closingIndex opening closing depth known = some n) (more : List Char) :
    closingIndex opening closing depth (known ++ more) = some n := by
  have alike : ReadsAlike known [] more := readsAlike (.inl List.not_mem_nil) more
  apply alike.closing first last
  · rwa [List.append_nil]
  · exact closingIndex_lt found

/-- What is found in the front of a text is found without the rest of it, unless a line ends
there. -/
theorem closingIndex_alone (first : Significant opening) (last : Significant closing)
    {more : List Char} (noBreak : '\n' ∉ more)
    (found : closingIndex opening closing depth (known ++ more) = some n)
    (inside : n < known.length) : closingIndex opening closing depth known = some n := by
  have alike : ReadsAlike known more [] := readsAlike (.inl noBreak) []
  have same := alike.closing first last found inside
  rwa [List.append_nil] at same

end Search

/-! ## Brackets -/

variable {opening closing : Char} {kind : Bracket}

theorem significant_of_opened {c : Char} (opens : Bracket.opened? c = some kind) :
    Significant (some c) := by
  unfold Bracket.opened? at opens
  split at opens
  case h_5 => cases opens
  all_goals exact significant_of_solid (by decide) (by decide)

theorem significant_of_closed {c : Char} (closes : Bracket.closed? c = some kind) :
    Significant (some c) := by
  unfold Bracket.closed? at closes
  split at closes
  case h_5 => cases closes
  all_goals exact significant_of_solid (by decide) (by decide)

/-- A body whose closing bracket is found at its end is a group in any context. -/
theorem findClosing_in_context (opens : Bracket.opened? opening = some kind)
    (closes : Bracket.closed? closing = some kind) {body : List Char}
    (matched : findClosing (body ++ [closing]) 0 opening closing = .ok body.length)
    (before after : List Char) :
    findClosing (before ++ (body ++ closing :: after)) before.length opening closing =
        .ok (before.length + body.length) ∧
      groupBody (before ++ (body ++ closing :: after)) before.length opening closing =
        .ok body := by
  obtain ⟨n, size, alone⟩ := findClosing_ok matched
  rw [Nat.zero_add] at size
  subst size
  have found : closingIndex (some opening) (some closing) 1 (body ++ closing :: after) =
      some body.length := by
    have anywhere := closingIndex_before (significant_of_opened opens)
      (significant_of_closed closes) alone after
    rwa [List.drop_zero, List.append_assoc, List.singleton_append] at anywhere
  have matchedThere : findClosing (before ++ (body ++ closing :: after)) before.length opening
      closing = .ok (before.length + body.length) := by
    rw [findClosing_eq, List.drop_left, found, Option.elim_some]
  constructor
  · exact matchedThere
  · rw [groupBody_eq, matchedThere]
    simp only [List.drop_left, Nat.add_sub_cancel_left, List.take_left]

/-- An apostrophe that opens no literal, a group, an interpolation and a comment stand in the body;
another apostrophe and further lines come after it. -/
theorem findClosing_in_context_remark :
    let body := "it's \x7b\n \x7d \"$\x7bm[\"\x7d\"]\x7d\" /* \x7d */ ".toList
    let text := "fun f() \x7b".toList ++ (body ++ '\x7d' :: "'\n\x7d".toList)
    Bracket.opened? '\x7b' = some .curly ∧ Bracket.closed? '\x7d' = some .curly ∧
      findClosing (body ++ ['\x7d']) 0 '\x7b' '\x7d' = .ok body.length ∧
      findClosing text 9 '\x7b' '\x7d' = .ok 39 ∧ groupBody text 9 '\x7b' '\x7d' = .ok body := by
  intro body text
  have opens : Bracket.opened? '\x7b' = some .curly := rfl
  have matched : findClosing (body ++ ['\x7d']) 0 '\x7b' '\x7d' = .ok body.length := by
    decide +kernel
  obtain ⟨found, inside⟩ :=
    findClosing_in_context opens rfl matched "fun f() \x7b".toList "'\n\x7d".toList
  exact ⟨opens, rfl, matched, found, inside⟩

end DartBindings.Source
