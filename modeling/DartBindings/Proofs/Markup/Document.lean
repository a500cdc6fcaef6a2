import DartBindings.Proofs.Markup.Reading
import Mathlib.Data.List.TakeWhile

/-!
How documents are read. What stands before the root element is passed over, and the root is read as
the element that the document denotes.
-/

set_option autoImplicit false

namespace DartBindings.Markup

open Text

/-! ## Before the root -/

section Symbols

variable {content : Content} {front words rest : List Char}

theorem symbols?_spaces (spaces : IsSpaces front) : symbols? (front ++ rest) = symbols? rest := by
  induction front with
  | nil => rfl
  | cons c front ih =>
      have first : isSpace c = true := spaces c List.mem_cons_self
      rw [List.cons_append, symbols?, if_pos first]
      exact ih fun d member => spaces d (List.mem_cons_of_mem _ member)

theorem symbols?_comment (comment : Content.IsComment words) (rest : List Char) :
    symbols? ('<' :: '!' :: '-' :: '-' :: (words ++ '-' :: '-' :: '>' :: rest)) =
      (symbols? rest).map fun found => (.aside :: found.1, found.2) := by
  have written : '!' :: '-' :: '-' :: (words ++ '-' :: '-' :: '>' :: rest) =
      ('!' :: '-' :: '-' :: (words ++ ['-', '-', '>'])) ++ rest := by
    simp
  have here : bracketedAt ('!' :: '-' :: '-' :: (words ++ '-' :: '-' :: '>' :: rest)) =
      some (.aside, ('!' :: '-' :: '-' :: (words ++ ['-', '-', '>'])).length + 1) := by
    rw [bracketedAt, written, comment.pieceAt rest]
  have apart : startsElement ('!' :: '-' :: '-' :: (words ++ '-' :: '-' :: '>' :: rest)) = false :=
    rfl
  rw [symbols?, apart, symbolAt, here]
  simp only [Option.bind_eq_bind, Option.bind_some, Nat.add_sub_cancel]
  rw [written, List.drop_left]
  cases symbols? rest <;> rfl

theorem symbols?_element (starts : StartsName rest) :
    symbols? ('<' :: rest) = some ([], '<' :: rest) := by
  obtain ⟨c, rest, rfl, start⟩ := starts
  have element : startsElement (c :: rest) = true := by
    simp [startsElement, ne_of_class start (by decide : isNameStart '!' = false),
      ne_of_class start (by decide : isNameStart '?' = false)]
  rw [symbols?, element]
  rfl

/-- The content from its first element on. -/
def Content.body : Content → Content
  | .last text => .last text
  | .comment _ _ after => after.body
  | .element _ tag inner closing after => .element [] tag inner closing after
  | .empty _ tag after => .empty [] tag after

/-- Before the first element there are only comments. -/
theorem Content.IsWellFormed.symbols? (wellFormed : content.IsWellFormed) (outer : content.IsOuter)
    (some : content.elements ≠ []) :
    ∃ symbols, symbols? content.text = .some (symbols, content.body.text) ∧
      ∀ symbol ∈ symbols, symbol = .aside := by
  induction content with
  | last text => exact absurd rfl some
  | comment before words after ih =>
      obtain ⟨symbols, found, asides⟩ := ih wellFormed.2.2 outer.2 some
      refine ⟨.aside :: symbols, ?_, by simpa using asides⟩
      rw [Content.text, symbols?_spaces outer.1, symbols?_comment wellFormed.2.1, found]
      rfl
  | element before tag inner closing after _ _ =>
      refine ⟨[], ?_, by simp⟩
      rw [Content.text, symbols?_spaces outer.1,
        symbols?_element (wellFormed.2.1.startsName _)]
      rfl
  | empty before tag after _ =>
      refine ⟨[], ?_, by simp⟩
      rw [Content.text, symbols?_spaces outer.1,
        symbols?_element (wellFormed.2.1.startsName _)]
      rfl

theorem ofSymbols?_asides {symbols : List Symbol} (asides : ∀ symbol ∈ symbols, symbol = .aside)
    (definitions : Definitions) : definitions.ofSymbols? symbols = some definitions := by
  have none : symbols.dropWhile (· == .aside) = [] :=
    List.dropWhile_eq_nil_iff.mpr (by simpa using asides)
  rw [Definitions.ofSymbols?, none]

theorem Content.IsWellFormed.body (wellFormed : content.IsWellFormed) :
    content.body.IsWellFormed := by
  induction content with
  | last text => exact wellFormed
  | comment before words after ih => exact ih wellFormed.2.2
  | element before tag inner closing after _ _ => exact ⟨isData_nil, wellFormed.2⟩
  | empty before tag after _ => exact ⟨isData_nil, wellFormed.2⟩

theorem Content.IsOuter.body (outer : content.IsOuter) : content.body.IsOuter := by
  induction content with
  | last text => exact outer
  | comment before words after ih => exact ih outer.2
  | element before tag inner closing after _ _ => exact ⟨isSpaces_nil, outer.2⟩
  | empty before tag after _ => exact ⟨isSpaces_nil, outer.2⟩

@[simp] theorem Content.elements_body (content : Content) :
    content.body.elements = content.elements := by
  induction content with
  | last text => rfl
  | comment before words after ih => exact ih
  | element before tag inner closing after _ _ => rfl
  | empty before tag after _ => rfl

end Symbols

/-! ## The root -/

section Roots

variable {content : Content} {root : Element}

theorem Content.IsWellFormed.root? (wellFormed : content.IsWellFormed) (outer : content.IsOuter)
    (elements : content.elements = [root]) (standsAlone : Bool) (size : Nat) :
    WrittenDocument.root? ⟨standsAlone, content.text⟩ size = some root := by
  obtain ⟨symbols, found, asides⟩ := wellFormed.symbols? outer (by simp [elements])
  have cut : Markup.pieces? content.body.text = some content.body.pieces := by
    have whole : Markup.pieces? (content.body.text ++ []) = _ := wellFormed.body.pieces? (by simp)
    rw [← List.append_nil content.body.text, whole, Markup.pieces?]
    simp
  have admits : Reading.Admits ⟨[], none⟩ content.body :=
    ⟨rfl, fun _ => ⟨outer.body, by simp [elements]⟩, fun _ => rfl⟩
  have read : Reading.pieces? (.initial standsAlone size) ⟨[], none⟩ content.body.pieces =
      some ⟨[], some root⟩ := by
    rw [wellFormed.body.reading_pieces? admits, Content.elements_body, elements]
    rfl
  have expanded : expandWithin? (Definitions.initial standsAlone size).known
      (Definitions.initial standsAlone size).entities.length content.body.pieces =
        some content.body.pieces :=
    expandPieces?_eq_self (fun text => wellFormed.body.isData) _
  rw [WrittenDocument.root?, found]
  simp only [Option.bind_eq_bind, Option.bind_some, ofSymbols?_asides asides, cut,
    pay?_eq_self (rfl : (Definitions.initial standsAlone size).entities = []), expanded, read]
  rfl

end Roots

end DartBindings.Markup
