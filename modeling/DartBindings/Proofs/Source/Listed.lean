import DartBindings.Proofs.Source.Nested

/-!
Splitting undoes joining. Pieces that the splitter passes whole come out of a text that joins
them with a separator and a blank.
-/

set_option autoImplicit false

namespace DartBindings.Source

open Text

variable {separator : Char}

/-- A text that a splitter passes in one piece where no bracket is open. -/
def Uncut (separator : Char) (text : List Char) : Prop :=
  ∀ rest, cutPieces [separator] (.within .level) (text ++ rest) =
    extendFirst text (cutPieces [separator] (.within .level) rest)

theorem Nested.uncut {text : List Char} (nested : Nested false text)
    (proper : isSeparator separator = true) : Uncut separator text := by
  intro rest
  apply nested.cutPieces proper
  intro inside
  cases inside

theorem Uncut.append {first last : List Char} (before : Uncut separator first)
    (after : Uncut separator last) : Uncut separator (first ++ last) := by
  intro rest
  rw [List.append_assoc, before, after, extendFirst_append]

theorem uncut_colon (different : ':' ≠ separator) : Uncut separator [':'] := by
  intro rest
  exact cutPieces_char (by decide) fun same => absurd same different

/-- The pieces in a row, with a separator and a blank between them. -/
def listed (separator : Char) (pieces : List (List Char)) : List Char :=
  [separator, ' '].intercalate pieces

@[simp] theorem listed_nil : listed separator [] = [] := rfl

@[simp] theorem listed_singleton (piece : List Char) : listed separator [piece] = piece := by
  simp [listed]

theorem listed_cons_cons (piece next : List Char) (pieces : List (List Char)) :
    listed separator (piece :: next :: pieces) =
      piece ++ separator :: ' ' :: listed separator (next :: pieces) := by
  simp [listed, List.intercalate_cons_cons]

theorem mem_listed_iff {c : Char} (noSeparator : c ≠ separator) (solid : c ≠ ' ')
    (pieces : List (List Char)) : c ∈ listed separator pieces ↔ ∃ piece ∈ pieces, c ∈ piece := by
  induction pieces with
  | nil => simp
  | cons piece pieces ih =>
      cases pieces with
      | nil => simp
      | cons next pieces =>
          rw [listed_cons_cons, List.mem_append, List.mem_cons, List.mem_cons, ih]
          simp [noSeparator, solid]

def joins (c : Char) : Bool :=
  c == ',' || c == ':'

theorem cutPieces_join (joining : joins separator = true) (rest : List Char) :
    cutPieces [separator] (.within .level) (separator :: ' ' :: rest) =
      [] :: extendFirst [' '] (cutPieces [separator] (.within .level) rest) := by
  simp only [joins, Bool.or_eq_true, beq_iff_eq] at joining
  have blank : cutPieces [separator] (.within .level) (' ' :: rest) =
      extendFirst [' '] (cutPieces [separator] (.within .level) rest) := by
    apply cutPieces_char (by decide)
    rintro rfl
    rcases joining with same | same <;> cases same
  rw [← blank]
  rcases joining with rfl | rfl <;> exact cutPieces_separator (by decide) rfl rfl

theorem map_strip_extendFirst {pieces : List (List Char)} (some : pieces ≠ []) :
    (extendFirst [' '] pieces).map strip = pieces.map strip := by
  obtain ⟨piece, rest, rfl⟩ := List.exists_cons_of_ne_nil some
  simp [extendFirst, strip, isBlank]

theorem map_strip_cutPieces_listed (joining : joins separator = true)
    {pieces : List (List Char)} (some : pieces ≠ [])
    (whole : ∀ piece ∈ pieces, Uncut separator piece)
    (solid : ∀ piece ∈ pieces, IsSolid piece) :
    (cutPieces [separator] (.within .level) (listed separator pieces)).map strip = pieces := by
  induction pieces with
  | nil => exact absurd rfl some
  | cons piece rest ih =>
      have first := strip_of_isSolid (solid piece List.mem_cons_self)
      have passed := whole piece List.mem_cons_self
      cases rest with
      | nil =>
          have ended := passed []
          rw [List.append_nil] at ended
          rw [listed_singleton, ended]
          simp [cutPieces, extendFirst, first]
      | cons next rest =>
          have later := ih (List.cons_ne_nil next rest)
            (fun other member => whole other (List.mem_cons_of_mem _ member))
            (fun other member => solid other (List.mem_cons_of_mem _ member))
          rw [listed_cons_cons, passed, cutPieces_join joining, extendFirst, List.append_nil,
            List.map_cons, map_strip_extendFirst (cutPieces_ne_nil _ _ _), later, first]

theorem splitTopLevel_listed (joining : joins separator = true) {pieces : List (List Char)}
    (whole : ∀ piece ∈ pieces, Uncut separator piece)
    (solid : ∀ piece ∈ pieces, IsSolid piece) :
    splitTopLevel [separator] (listed separator pieces) = pieces := by
  cases pieces with
  | nil => simp [splitTopLevel, cutPieces, strip, dropEndWhile]
  | cons piece rest =>
      have stripped := map_strip_cutPieces_listed joining (List.cons_ne_nil piece rest) whole solid
      have start : SplitState.start = .within .level := rfl
      rw [splitTopLevel, start, stripped, List.filter_eq_self]
      intro other member
      simpa using (solid other member).nonempty

theorem splitTopLevel_whole {text : List Char} (whole : Uncut separator text)
    (solid : IsSolid text) : splitTopLevel [separator] text = [text] := by
  have ended := whole []
  rw [List.append_nil] at ended
  have start : SplitState.start = .within .level := rfl
  rw [splitTopLevel, start, ended]
  simp [cutPieces, extendFirst, strip_of_isSolid solid, solid.nonempty]

end DartBindings.Source
