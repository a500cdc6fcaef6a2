import DartBindings.Proofs.Text.Classes
import DartBindings.Proofs.Text.Strip

/-!
What cutting keeps of a text, and which pieces are left when blank ones are dropped.
-/

set_option autoImplicit false

namespace DartBindings.Source

open Text

/-! ## Separators -/

/-- The separators of parameter lists. -/
def isSeparator (c : Char) : Bool :=
  c == ',' || c == ':' || c == '='

theorem eq_of_isSeparator {c : Char} (proper : isSeparator c = true) :
    c = ',' ∨ c = ':' ∨ c = '=' := by
  simpa [isSeparator, or_assoc] using proper

/-! ## Blank pieces -/

theorem splitTopLevel_eq_nil_iff {separator text : List Char} :
    splitTopLevel separator text = [] ↔
      ∀ piece ∈ cutPieces separator .start text, ∀ c ∈ piece, isBlank c = true := by
  simp [splitTopLevel, List.filter_eq_nil_iff, strip_eq_nil_iff]

/-! ## Cutting loses nothing -/

theorem extendFirst_ne_nil (taken : List Char) (pieces : List (List Char)) :
    extendFirst taken pieces ≠ [] := by
  cases pieces <;> simp [extendFirst]

theorem extendFirst_nil {pieces : List (List Char)} (some : pieces ≠ []) :
    extendFirst [] pieces = pieces := by
  obtain ⟨piece, rest, rfl⟩ := List.exists_cons_of_ne_nil some
  rfl

theorem cutPieces_ne_nil (separator : List Char) (state : SplitState) (text : List Char) :
    cutPieces separator state text ≠ [] := by
  cases text with
  | nil => simp [cutPieces]
  | cons c rest =>
      rw [cutPieces]
      dsimp only
      split
      · exact extendFirst_ne_nil _ _
      · split
        · exact List.cons_ne_nil _ _
        · exact extendFirst_ne_nil _ _

theorem intercalate_extendFirst (separator taken : List Char) {pieces : List (List Char)}
    (some : pieces ≠ []) :
    separator.intercalate (extendFirst taken pieces) = taken ++ separator.intercalate pieces := by
  obtain ⟨piece, rest, rfl⟩ := List.exists_cons_of_ne_nil some
  cases rest with
  | nil => simp [extendFirst]
  | cons next rest => simp [extendFirst, List.intercalate_cons_cons]

/-- The pieces of a cut, with the separator between them, are the text. -/
theorem intercalate_cutPieces {separator : List Char} (proper : separator ≠ [])
    (state : SplitState) (text : List Char) :
    separator.intercalate (cutPieces separator state text) = text := by
  induction size : text.length using Nat.strongRecOn generalizing state text with
  | ind bound ih =>
      cases text with
      | nil => simp [cutPieces]
      | cons c rest =>
          have shorter (n : Nat) : (rest.drop n).length < bound := by
            rw [← size, List.length_drop, List.length_cons]
            omega
          have joined (next : SplitState) (n : Nat) := ih _ (shorter n) next (rest.drop n) rfl
          rw [cutPieces]
          dsimp only
          split
          · rw [intercalate_extendFirst _ _ (cutPieces_ne_nil _ _ _), joined, List.cons_append,
              List.take_append_drop]
          · split
            · rename_i cut
              have starts : separator <+: c :: rest := by
                simp only [Bool.and_eq_true, List.isPrefixOf_iff_prefix] at cut
                exact cut.1.2
              obtain ⟨after, split⟩ := starts
              obtain ⟨first, others, rfl⟩ := List.exists_cons_of_ne_nil proper
              rw [List.cons_append, List.cons.injEq] at split
              obtain ⟨rfl, rfl⟩ := split
              rw [List.intercalate_cons_of_ne_nil (cutPieces_ne_nil _ _ _), joined]
              simp
            · rw [intercalate_extendFirst _ _ (cutPieces_ne_nil _ _ _)]
              have next := joined (state.step c) 0
              rw [List.drop_zero] at next
              rw [next]
              rfl

theorem mem_intercalate {separator : List Char} {pieces : List (List Char)} {c : Char}
    (member : c ∈ separator.intercalate pieces) :
    (∃ piece ∈ pieces, c ∈ piece) ∨ c ∈ separator := by
  induction pieces with
  | nil => cases member
  | cons piece pieces ih =>
      by_cases last : pieces = []
      · subst last
        rw [List.intercalate_singleton] at member
        exact .inl ⟨piece, List.mem_cons_self, member⟩
      · rw [List.intercalate_cons_of_ne_nil last, List.append_assoc, List.mem_append,
          List.mem_append] at member
        rcases member with first | between | later
        · exact .inl ⟨piece, List.mem_cons_self, first⟩
        · exact .inr between
        · rcases ih later with ⟨other, among, inside⟩ | between
          · exact .inl ⟨other, List.mem_cons_of_mem _ among, inside⟩
          · exact .inr between

theorem mem_intercalate_of_mem {separator : List Char} {pieces : List (List Char)}
    {piece : List Char} {c : Char} (listed : piece ∈ pieces) (inside : c ∈ piece) :
    c ∈ separator.intercalate pieces := by
  induction listed with
  | head pieces =>
      by_cases last : pieces = []
      · simpa [last] using inside
      · simp [List.intercalate_cons_of_ne_nil last, inside]
  | @tail first pieces listed ih =>
      rw [List.intercalate_cons_of_ne_nil (List.ne_nil_of_mem listed)]
      exact List.mem_append_right _ ih

theorem mem_cutPieces_or {separator : List Char} (proper : separator ≠ []) (state : SplitState)
    {text : List Char} {c : Char} (member : c ∈ text) :
    (∃ piece ∈ cutPieces separator state text, c ∈ piece) ∨ c ∈ separator := by
  rw [← intercalate_cutPieces proper state text] at member
  exact mem_intercalate member

/-! ## One character -/

theorem cutPieces_separator {separator : Char} {state : SplitState} {rest : List Char}
    (quote : isQuote separator = false) (bracket : state.isBracket separator = false)
    (level : state.depths = .level) :
    cutPieces [separator] state (separator :: rest) =
      [] :: cutPieces [separator] ⟨.level, false, separator == '-'⟩ rest := by
  rw [cutPieces]
  simp [quote, bracket, level, endsWithDash]

theorem cuts_eq_false {separator c : Char} {state : SplitState}
    (uncut : c = separator → state.depths ≠ .level) (rest : List Char) :
    (!state.isBracket c && [separator].isPrefixOf (c :: rest) && state.depths == .level) =
      false := by
  by_cases same : c = separator
  · simp [uncut same]
  · have different : separator ≠ c := fun equal => same equal.symm
    simp [List.isPrefixOf, different]

theorem cutPieces_char {separator c : Char} {state : SplitState} {rest : List Char}
    (quote : isQuote c = false) (uncut : c = separator → state.depths ≠ .level) :
    cutPieces [separator] state (c :: rest) =
      extendFirst [c] (cutPieces [separator] (state.step c) rest) := by
  rw [cutPieces]
  simp only [quote, cuts_eq_false uncut, Bool.false_eq_true, ↓reduceIte]

/-! ## Texts of colons -/

theorem depths_step_of_isBlank {state : SplitState} {c : Char} (blank : isBlank c = true) :
    (state.step c).depths = state.depths := by
  have opened : Bracket.opened? c = none := by
    unfold Bracket.opened?
    split <;> first | rfl | (revert blank; decide)
  have closed : Bracket.closed? c = none := by
    unfold Bracket.closed?
    split <;> first | rfl | (revert blank; decide)
  simp [SplitState.step, opened, closed]

theorem mem_extendFirst {taken piece : List Char} {pieces : List (List Char)}
    (member : piece ∈ extendFirst taken pieces) :
    piece = taken ∨ (∃ first ∈ pieces, piece = taken ++ first) ∨ piece ∈ pieces := by
  cases pieces with
  | nil => exact .inl (List.mem_singleton.mp member)
  | cons first rest =>
      rcases List.mem_cons.mp member with rfl | later
      · exact .inr (.inl ⟨first, List.mem_cons_self, rfl⟩)
      · exact .inr (.inr (List.mem_cons_of_mem _ later))

theorem blank_of_mem_cutPieces {state : SplitState} {text piece : List Char}
    (level : state.depths = .level) (colons : ∀ c ∈ text, c = ':' ∨ isBlank c = true)
    (member : piece ∈ cutPieces [':'] state text) : ∀ c ∈ piece, isBlank c = true := by
  induction text generalizing state piece with
  | nil =>
      simp only [cutPieces, List.mem_singleton] at member
      subst member
      simp
  | cons c rest ih =>
      have later : ∀ c ∈ rest, c = ':' ∨ isBlank c = true := fun d inside =>
        colons d (List.mem_cons_of_mem _ inside)
      rcases colons c List.mem_cons_self with rfl | blank
      · rw [cutPieces_separator (by decide) rfl level] at member
        rcases List.mem_cons.mp member with rfl | among
        · simp
        · exact ih rfl later among
      · have solid : c ≠ ':' := ne_of_class blank (by decide)
        have after : (state.step c).depths = .level := by rw [depths_step_of_isBlank blank, level]
        rw [cutPieces_char (isQuote_of_isBlank blank) fun same => absurd same solid] at member
        rcases mem_extendFirst member with rfl | ⟨first, among, rfl⟩ | among
        · simpa using blank
        · simpa [blank] using ih after later among
        · exact ih after later among

theorem splitTopLevel_colon_eq_nil_iff {text : List Char} :
    splitTopLevel [':'] text = [] ↔ ∀ c ∈ text, c = ':' ∨ isBlank c = true := by
  rw [splitTopLevel_eq_nil_iff]
  constructor
  · intro blank c member
    rcases mem_cutPieces_or (List.cons_ne_nil ':' []) .start member with
      ⟨piece, among, inside⟩ | separator
    · exact .inr (blank piece among c inside)
    · exact .inl (List.mem_singleton.mp separator)
  · intro colons piece among
    exact blank_of_mem_cutPieces rfl colons among

end DartBindings.Source
