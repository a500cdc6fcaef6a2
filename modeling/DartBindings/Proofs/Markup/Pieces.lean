import DartBindings.Proofs.Markup.Tag

/-!
How content is cut. The pieces of a content of the grammar are its texts, comments and tags, as they
follow each other, whatever tag stands behind the content.
-/

set_option autoImplicit false

namespace DartBindings.Markup

open Text

/-! ## Marks -/

section Marks

variable {mark front text words rest : List Char}

theorem indexOf?_eq_none_iff (some : mark ≠ []) : indexOf? mark text = none ↔ ¬ mark <:+: text := by
  induction text with
  | nil => simp [indexOf?, some]
  | cons c text ih =>
      rw [indexOf?, List.infix_cons_iff, not_or, ← ih, ← List.isPrefixOf_iff_prefix]
      split <;> simp_all

/-- The first occurrence is the mark at the end, for its first character is not before it. -/
theorem indexOf?_append {c : Char} (apart : c ∉ front) (mark rest : List Char) :
    indexOf? (c :: mark) (front ++ c :: (mark ++ rest)) = some front.length := by
  have self : (c :: mark).isPrefixOf (c :: (mark ++ rest)) = true := by
    rw [List.isPrefixOf_iff_prefix]
    exact List.prefix_append (c :: mark) rest
  induction front with
  | nil => rw [List.nil_append, indexOf?, if_pos self, List.length_nil]
  | cons d front ih =>
      rw [List.mem_cons, not_or] at apart
      have other : (c :: mark).isPrefixOf (d :: (front ++ c :: (mark ++ rest))) = false := by
        simp [List.isPrefixOf, apart.1]
      rw [List.cons_append, indexOf?, other, if_neg Bool.false_ne_true, ih apart.2]
      rfl

theorem Content.IsComment.tail {c : Char} (comment : IsComment (c :: words)) : IsComment words where
  inside inside := comment.inside (List.infix_cons inside)
  atEnd := by
    cases words with
    | nil => simp
    | cons d words => simpa only [List.getLast?_cons_cons] using comment.atEnd

theorem Content.IsComment.indexOf? (comment : IsComment words) (rest : List Char) :
    indexOf? ['-', '-', '>'] (words ++ '-' :: '-' :: '>' :: rest) = some words.length := by
  induction words with
  | nil => simp [Markup.indexOf?]
  | cons c words ih =>
      have other :
          ['-', '-', '>'].isPrefixOf (c :: (words ++ '-' :: '-' :: '>' :: rest)) = false := by
        cases words with
        | nil => simp [List.isPrefixOf]
        | cons d words =>
            have pair : ¬ ('-' = c ∧ '-' = d) := by
              rintro ⟨rfl, rfl⟩
              exact comment.inside (List.prefix_append ['-', '-'] words).isInfix
            simp only [List.cons_append, List.isPrefixOf, Bool.and_eq_false_iff,
              beq_eq_false_iff_ne]
            tauto
      rw [List.cons_append, Markup.indexOf?, other, if_neg Bool.false_ne_true, ih comment.tail]
      rfl

theorem Content.IsComment.commentOf (comment : IsComment words) :
    commentOf words = some .comment := by
  have inside : Markup.indexOf? ['-', '-'] words = none :=
    (indexOf?_eq_none_iff (by simp)).mpr comment.inside
  rw [Markup.commentOf, inside]
  simp [comment.atEnd]

end Marks

/-! ## Pieces -/

section Pieces

variable {text words rest : List Char}

/-- Only an exclamation mark starts a comment or a literal section. -/
theorem isPrefixOf_cons_eq_false {c : Char} (other : c ≠ '!') (rest : List Char) :
    ['!', '-', '-'].isPrefixOf (c :: rest) = false ∧
      literalMark.isPrefixOf (c :: rest) = false := by
  have mark : literalMark = '!' :: "[CDATA[".toList := by decide
  rw [mark]
  simp [List.isPrefixOf, other.symm]

theorem pieces?_bracket {inner : List Char} {piece : Piece}
    (here : pieceAt (inner ++ rest) = some (piece, inner.length)) :
    pieces? ('<' :: (inner ++ rest)) = (pieces? rest).map (piece :: ·) := by
  rw [pieces?, here]
  simp only [Option.bind_eq_bind, Option.bind_some, List.drop_left]
  cases pieces? rest <;> rfl

/-- The pieces of a text that stands between tags. -/
def textPieces (text : List Char) : List Piece :=
  if text.isEmpty then [] else [.text text]

theorem pieces?_text (apart : '<' ∉ text) (ended : ∀ c ∈ rest.head?, c = '<') :
    pieces? (text ++ rest) = (pieces? rest).map (textPieces text ++ ·) := by
  cases text with
  | nil => simp [textPieces]
  | cons c text =>
      rw [List.mem_cons, not_or] at apart
      have length : ((text ++ rest).takeWhile (· != '<')) = text := by
        apply takeWhile_append_ended
        · intro d member
          have other : d ≠ '<' := fun same => apart.2 (same ▸ member)
          simpa using other
        · intro d first
          rw [ended d first]
          rfl
      rw [List.cons_append, pieces?]
      · simp only [length, List.drop_left, List.take_left, Option.bind_eq_bind]
        cases pieces? rest <;> rfl
      · exact fun same => apart.1 same.symm

theorem Content.IsComment.pieceAt (comment : IsComment words) (rest : List Char) :
    pieceAt (('!' :: '-' :: '-' :: (words ++ ['-', '-', '>'])) ++ rest) =
      some (.comment, ('!' :: '-' :: '-' :: (words ++ ['-', '-', '>'])).length) := by
  simp [Markup.pieceAt, delimited, comment.indexOf?, comment.commentOf]
  omega

theorem pieces?_comment (comment : Content.IsComment words) (rest : List Char) :
    pieces? ('<' :: '!' :: '-' :: '-' :: (words ++ '-' :: '-' :: '>' :: rest)) =
      (pieces? rest).map (.comment :: ·) := by
  have written : '<' :: '!' :: '-' :: '-' :: (words ++ '-' :: '-' :: '>' :: rest) =
      '<' :: (('!' :: '-' :: '-' :: (words ++ ['-', '-', '>'])) ++ rest) := by
    simp
  rw [written, pieces?_bracket (comment.pieceAt rest)]

theorem pieces?_closing (apart : '>' ∉ text) (rest : List Char) :
    pieces? ('<' :: '/' :: (text ++ '>' :: rest)) = (pieces? rest).map (.closing text :: ·) := by
  have found : indexOf? ['>'] (text ++ '>' :: rest) = some text.length :=
    indexOf?_append apart [] rest
  have here : pieceAt (('/' :: (text ++ ['>'])) ++ rest) =
      some (.closing text, ('/' :: (text ++ ['>'])).length) := by
    obtain ⟨noComment, noLiteral⟩ :=
      isPrefixOf_cons_eq_false (by decide : '/' ≠ '!') (text ++ '>' :: rest)
    rw [List.cons_append, List.append_assoc, List.singleton_append, pieceAt, noComment, noLiteral]
    simp [delimited, found]
    omega
  have written :
      '<' :: '/' :: (text ++ '>' :: rest) = '<' :: (('/' :: (text ++ ['>'])) ++ rest) := by
    simp
  rw [written, pieces?_bracket here]

/-- The text starts like a name. -/
def StartsName (text : List Char) : Prop :=
  ∃ c rest, text = c :: rest ∧ isNameStart c = true

theorem pieces?_opening (inTag : IsInTag text) (starts : StartsName text) (rest : List Char) :
    pieces? ('<' :: (text ++ '>' :: rest)) = (pieces? rest).map (.opening text :: ·) := by
  have found : tagEnd? none (text ++ '>' :: rest) = some text.length := by
    rw [inTag]
    simp [tagEnd?]
  have here : pieceAt ((text ++ ['>']) ++ rest) =
      some (.opening text, (text ++ ['>']).length) := by
    obtain ⟨c, text, rfl, start⟩ := starts
    obtain ⟨noComment, noLiteral⟩ :=
      isPrefixOf_cons_eq_false (ne_of_class start (by decide) : c ≠ '!') (text ++ '>' :: rest)
    rw [List.append_assoc, List.singleton_append, List.cons_append, pieceAt, noComment, noLiteral,
      if_neg Bool.false_ne_true, if_neg Bool.false_ne_true]
    · rw [← List.cons_append, found]
      simp
    · exact fun _ same => ne_of_class start (by decide) (List.cons.inj same).1
    · exact fun _ same => ne_of_class start (by decide) (List.cons.inj same).1
  have written : '<' :: (text ++ '>' :: rest) = '<' :: ((text ++ ['>']) ++ rest) := by simp
  rw [written, pieces?_bracket here]

end Pieces

/-! ## Content -/

section Contents

variable {content : Content} {tag : TagText} {text rest : List Char}

theorem IsData.bracket_not_mem (data : IsData text) : '<' ∉ text := by
  obtain ⟨⟨value, spells⟩, -⟩ := data
  exact spells.not_mem (by decide) (by decide)

theorem TagText.IsWellFormed.startsName (wellFormed : tag.IsWellFormed) (rest : List Char) :
    StartsName (tag.text ++ rest) := by
  obtain ⟨c, name, same, start, -⟩ := isName_cons wellFormed.name
  exact ⟨c, name ++ tag.later ++ rest, by simp [TagText.text, same], start⟩

def Content.pieces : Content → List Piece
  | .last text => textPieces text
  | .comment before _ after => textPieces before ++ .comment :: after.pieces
  | .element before tag inner closing after =>
    textPieces before ++ .opening tag.text :: (inner.pieces ++
      .closing (tag.name ++ closing) :: after.pieces)
  | .empty before tag after => textPieces before ++ .opening (tag.text ++ ['/']) :: after.pieces

/-- A content is cut into its pieces, up to the end of the document or the tag behind it. -/
theorem Content.IsWellFormed.pieces? (wellFormed : content.IsWellFormed)
    (ended : ∀ c ∈ rest.head?, c = '<') :
    pieces? (content.text ++ rest) = (pieces? rest).map (content.pieces ++ ·) := by
  -- Every text between tags ends at a bracket: that of the tag behind it, or of the one after all.
  have bracket {later : List Char} : ∀ c ∈ ('<' :: later).head?, c = '<' := by simp
  induction content generalizing rest with
  | last text => exact pieces?_text wellFormed.bracket_not_mem ended
  | comment before words after ih =>
      obtain ⟨data, comment, following⟩ := wellFormed
      have written : (Content.comment before words after).text ++ rest =
          before ++ '<' :: '!' :: '-' :: '-' :: (words ++
            '-' :: '-' :: '>' :: (after.text ++ rest)) := by
        simp [Content.text]
      rw [written, pieces?_text data.bracket_not_mem bracket, pieces?_comment comment,
        ih following ended, Option.map_map, Option.map_map]
      congr 1
      funext later
      simp [Content.pieces]
  | element before tag inner closing after ihInner ihAfter =>
      obtain ⟨data, proper, inside, spaces, following⟩ := wellFormed
      have apart : '>' ∉ tag.name ++ closing := by
        rw [List.mem_append, not_or]
        exact ⟨fun member => ne_of_mem_name proper.name member (by decide) rfl,
          fun member => absurd (spaces _ member) (by decide)⟩
      have starts : StartsName tag.text := List.append_nil tag.text ▸ proper.startsName []
      have written : (Content.element before tag inner closing after).text ++ rest =
          before ++ '<' :: (tag.text ++ '>' :: (inner.text ++
            '<' :: '/' :: ((tag.name ++ closing) ++ '>' :: (after.text ++ rest)))) := by
        simp [Content.text]
      rw [written, pieces?_text data.bracket_not_mem bracket,
        pieces?_opening proper.isInTag starts, ihInner inside bracket, pieces?_closing apart,
        ihAfter following ended]
      simp only [Option.map_map]
      congr 1
      funext later
      simp [Content.pieces]
  | empty before tag after ih =>
      obtain ⟨data, proper, following⟩ := wellFormed
      have slash : IsInTag ['/'] := isInTag_plain (by simp)
      have written : (Content.empty before tag after).text ++ rest =
          before ++ '<' :: ((tag.text ++ ['/']) ++ '>' :: (after.text ++ rest)) := by
        simp [Content.text]
      rw [written, pieces?_text data.bracket_not_mem bracket,
        pieces?_opening (proper.isInTag.append slash) (proper.startsName _), ih following ended]
      simp only [Option.map_map]
      congr 1
      funext later
      simp [Content.pieces]

end Contents

end DartBindings.Markup
