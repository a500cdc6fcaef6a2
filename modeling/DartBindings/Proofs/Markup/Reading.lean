import DartBindings.Proofs.Markup.Pieces
import DartBindings.Proofs.Results
import Mathlib.Data.List.Nodup

/-!
How content is read. Where nothing is declared, no reference stands for pieces, every tag is read
as its element without what is in it, and a content leaves the reading with its elements added in
order.
-/

set_option autoImplicit false

namespace DartBindings.Markup

open Text

/-! ## References -/

section References

variable {entities : Entities} {content : Content} {text : List Char} {pieces : List Piece}

theorem total?_eq_zero (none : entities.declared = []) (sizes : Sizes) (names : List (List Char)) :
    entities.total? sizes names = some 0 := by
  have size (name : List Char) : entities.size? sizes name = some 0 := by
    unfold Entities.size? Entities.named
    rw [none, List.lookup_nil]
    cases predefined.lookup (String.ofList name) <;> rfl
  rw [Entities.total?, mapM_eq_some_map fun name _ => size name, Option.map_some]
  induction names with
  | nil => rfl
  | cons name names ih => simpa using ih

/-- Without declarations no reference takes anything from the allowance. -/
theorem pay?_eq_self {definitions : Definitions} (none : definitions.entities = []) :
    definitions.pay? pieces = some definitions := by
  have cost : definitions.known.cost? pieces = some 0 := by
    unfold Entities.cost?
    split
    · rfl
    · exact total?_eq_zero none _ _
  rw [Definitions.pay?, cost]
  rfl

theorem IsData.indexOf? (data : IsData text) : indexOf? sectionEnd text = none :=
  (indexOf?_eq_none_iff (by simp [sectionEnd])).mpr data.apart

theorem expandPieces?_eq_self (data : ∀ text, .text text ∈ pieces → IsData text)
    (inner : List Char → Option (List Piece)) :
    expandPieces? entities inner pieces = some pieces := by
  have whole : (pieces.map fun piece => [piece]).flatten = pieces := by
    rw [← List.flatMap_def, List.flatMap_singleton']
  rw [expandPieces?, @mapM_eq_some_map Piece (List Piece) _ fun piece => [piece],
    Option.bind_eq_bind, Option.bind_some, whole]
  · rfl
  · intro piece member
    cases piece with
    | text content =>
        have readable := data content member
        simp [readable.indexOf?, readable.referredPieces?]
    | _ => rfl

theorem eq_of_mem_textPieces {other : List Char} (member : .text text ∈ textPieces other) :
    text = other := by
  unfold textPieces at member
  split at member
  · cases member
  · simpa using member

theorem Content.IsWellFormed.isData (wellFormed : content.IsWellFormed)
    (member : .text text ∈ content.pieces) : IsData text := by
  induction content with
  | last final =>
      rw [eq_of_mem_textPieces member]
      exact wellFormed
  | comment before words after ih =>
      obtain ⟨data, -, following⟩ := wellFormed
      simp only [Content.pieces, List.mem_append, List.mem_cons, reduceCtorEq, false_or] at member
      rcases member with here | later
      · rw [eq_of_mem_textPieces here]
        exact data
      · exact ih following later
  | element before tag inner closing after ihInner ihAfter =>
      obtain ⟨data, -, inside, -, following⟩ := wellFormed
      simp only [Content.pieces, List.mem_append, List.mem_cons, reduceCtorEq, false_or] at member
      rcases member with here | within | later
      · rw [eq_of_mem_textPieces here]
        exact data
      · exact ihInner inside within
      · exact ihAfter following later
  | empty before tag after ih =>
      obtain ⟨data, -, following⟩ := wellFormed
      simp only [Content.pieces, List.mem_append, List.mem_cons, reduceCtorEq, false_or] at member
      rcases member with here | later
      · rw [eq_of_mem_textPieces here]
        exact data
      · exact ih following later

end References

/-! ## Tags -/

section Tags

variable {standsAlone : Bool} {size : Nat} {tag : TagText} {reading : Reading}
  {text : List Char}

theorem allDistinct_iff_nodup {α : Type} [BEq α] [LawfulBEq α] {items : List α} :
    allDistinct items = true ↔ items.Nodup := by
  induction items with
  | nil => simp [allDistinct]
  | cons item items ih => simp [allDistinct, ih]

/-- The attributes of a tag as they are read. -/
def TagText.given (tag : TagText) : List ReadAttribute :=
  tag.attributes.map fun field => (⟨none, field.name⟩, field.value)

theorem AttributeText.IsWellFormed.value? {field : AttributeText} (wellFormed : field.IsWellFormed)
    (isComplete : Bool) : Entities.value? ⟨[], isComplete⟩ false field.content = some field.value :=
  wellFormed.value.valueWith (by simp [isValueChar]) (by simp [isValueChar]) (by simp [isValueChar])
    _ _

namespace TagText.IsWellFormed

theorem attributes? (wellFormed : tag.IsWellFormed) (written : QualifiedName) :
    (Definitions.initial standsAlone size).attributes?
      ⟨written, tag.attributes.map AttributeText.written⟩ = some tag.given := by
  have none : (Definitions.initial standsAlone size).attributesOf written = [] := rfl
  rw [Definitions.attributes?, none, List.mapM_map, mapM_eq_some_map]
  · simp
    rfl
  · intro field member
    have value : (Definitions.initial standsAlone size).known.value? false field.content =
        some field.value := (wellFormed.attributes field member).value? _
    simp [AttributeText.written, value]

theorem boundQualifier? (wellFormed : tag.IsWellFormed) {read : ReadAttribute}
    (member : read ∈ tag.given) : boundQualifier? read.1 = none := by
  obtain ⟨field, among, rfl⟩ := List.mem_map.mp member
  simp [Markup.boundQualifier?, (wellFormed.attributes field among).plain]

theorem declareAll? (wellFormed : tag.IsWellFormed) (scope : Scope) :
    scope.declareAll? tag.given = some scope := by
  have plain : ∀ read ∈ tag.given, Markup.boundQualifier? read.1 = none :=
    fun read member => wellFormed.boundQualifier? member
  revert plain
  induction tag.given with
  | nil => exact fun _ => rfl
  | cons read later ih =>
      intro plain
      rw [List.forall_mem_cons] at plain
      obtain ⟨name, value⟩ := read
      rw [Scope.declareAll?, plain.1]
      exact ih plain.2

theorem readAttributes? (wellFormed : tag.IsWellFormed) (scope : Scope) :
    scope.readAttributes? tag.given = some (tag.element []).attributes := by
  have plain : tag.given.filter (fun read => (Markup.boundQualifier? read.1).isNone) = tag.given :=
    List.filter_eq_self.mpr fun read member => by rw [wellFormed.boundQualifier? member]; rfl
  have written : allDistinct (tag.given.map (·.1)) = true := by
    have names : tag.given.map (·.1) =
        (tag.attributes.map AttributeText.name).map (QualifiedName.mk none) := by
      rw [TagText.given, List.map_map, List.map_map]
      rfl
    rw [allDistinct_iff_nodup, names]
    have apart : Function.Injective (QualifiedName.mk none) :=
      fun _ _ same => (QualifiedName.mk.inj same).2
    exact List.Nodup.map apart wellFormed.distinct
  have full : allDistinct ((tag.element []).attributes.map (·.1)) = true := by
    have names : (tag.element []).attributes.map (·.1) =
        (tag.attributes.map AttributeText.name).map String.ofList := by
      rw [TagText.element, List.map_map, List.map_map]
      rfl
    rw [allDistinct_iff_nodup, names]
    have apart : Function.Injective String.ofList := fun _ _ => String.ofList_injective
    exact List.Nodup.map apart wellFormed.distinct
  have values : (tag.given.mapM fun read => (scope.attributeName? read.1).bind fun name =>
      some (name, String.ofList read.2)) = some (tag.element []).attributes := by
    rw [TagText.given, List.mapM_map]
    exact mapM_eq_some_map fun _ _ => rfl
  rw [Scope.readAttributes?, written, plain]
  simp only [Bool.not_true, Bool.false_eq_true, ↓reduceIte, Option.bind_eq_bind, Option.pure_def]
  rw [values, Option.bind_some, if_pos full]

/-- A tag is read as its element. -/
theorem open?_of_tag? (wellFormed : tag.IsWellFormed) (scope : reading.scope = .initial)
    (root : reading.root = none)
    (read : tag? text = some ⟨⟨none, tag.name⟩, tag.attributes.map AttributeText.written⟩) :
    reading.open? (.initial standsAlone size) text =
      some (if Markup.isEmptyTag text then reading.add (tag.element [])
        else ⟨⟨⟨none, tag.name⟩, tag.element [], .initial⟩ :: reading.stack, none⟩) := by
  have name : Scope.initial.elementName? ⟨none, tag.name⟩ = some (tag.element []).name := rfl
  rw [Reading.open?, read, scope]
  simp only [Option.bind_eq_bind, Option.bind_some, wellFormed.attributes?, wellFormed.declareAll?,
    wellFormed.readAttributes?, name, root]
  cases Markup.isEmptyTag text <;> rfl

/-- A tag that closes the inmost element adds it to the one around it. -/
theorem close?_append {spaces : List Char} (wellFormed : tag.IsWellFormed)
    (isSpaces : IsSpaces spaces) {element : Element} {scope : Scope} {outer : List OpenElement}
    {root : Option Element} :
    Reading.close? ⟨⟨⟨none, tag.name⟩, element, scope⟩ :: outer, root⟩ (tag.name ++ spaces) =
      some (Reading.add ⟨outer, root⟩ element.inOrder) := by
  have name : (tag.name ++ spaces).takeWhile isTagNameChar = tag.name :=
    takeWhile_name wellFormed.name fun c first =>
      isTagNameChar_of_isSpace (isSpaces c (List.mem_of_mem_head? first))
  have blank : spaces.all isSpace = true := List.all_eq_true.mpr isSpaces
  have read : closingName? (tag.name ++ spaces) = some ⟨none, tag.name⟩ := by
    rw [closingName?, name, qualifiedName?_of_isName wellFormed.name]
    simp [blank]
  rw [Reading.close?, read]
  simp

end TagText.IsWellFormed

end Tags

/-! ## Content -/

section Contents

variable {standsAlone : Bool} {size : Nat} {definitions : Definitions} {content after : Content}
  {reading : Reading} {element : Element} {text : List Char}

theorem Reading.pieces?_append (reading : Reading) (front rest : List Piece) :
    reading.pieces? definitions (front ++ rest) =
      (reading.pieces? definitions front).bind fun reading => reading.pieces? definitions rest := by
  induction front generalizing reading with
  | nil => rfl
  | cons piece front ih => simp only [List.cons_append, Reading.pieces?, ih, Option.bind_assoc]

/-- A text leaves the reading as it is. -/
theorem Reading.pieces?_textPieces (outer : reading.stack = [] → IsSpaces text)
    (rest : List Piece) :
    reading.pieces? definitions (textPieces text ++ rest) = reading.pieces? definitions rest := by
  unfold textPieces
  split
  · rfl
  · have blank : (reading.stack.isEmpty && !(text.all isSpace)) = false := by
      cases stack : reading.stack with
      | nil =>
          have spaces : text.all isSpace = true := List.all_eq_true.mpr (outer stack)
          rw [spaces]
          rfl
      | cons inmost rest => rfl
    simp [Reading.pieces?, Reading.piece?, blank]

theorem Reading.scope_add (reading : Reading) (element : Element) :
    (reading.add element).scope = reading.scope := by
  obtain ⟨_ | ⟨inmost, outer⟩, root⟩ := reading <;> rfl

theorem Reading.stack_add_eq_nil_iff :
    (reading.add element).stack = [] ↔ reading.stack = [] := by
  obtain ⟨_ | ⟨inmost, outer⟩, root⟩ := reading <;> simp [Reading.add]

theorem Reading.root_add (inside : reading.stack ≠ []) :
    (reading.add element).root = reading.root := by
  obtain ⟨_ | ⟨inmost, outer⟩, root⟩ := reading
  · exact absurd rfl inside
  · rfl

/-- The elements in the inmost open element are kept the latest first. -/
theorem Reading.foldl_add (elements : List Element) (inmost : OpenElement)
    (outer : List OpenElement) (root : Option Element) :
    elements.foldl Reading.add ⟨inmost :: outer, root⟩ =
      ⟨{ inmost with element :=
        { inmost.element with children := elements.reverse ++ inmost.element.children } } :: outer,
        root⟩ := by
  induction elements generalizing inmost with
  | nil =>
      obtain ⟨written, ⟨name, attributes, children⟩, scope⟩ := inmost
      rfl
  | cons element elements ih => simp [Reading.add, ih]

/-- The content may come next: outside the root there are only spaces and comments around it. -/
structure Reading.Admits (reading : Reading) (content : Content) : Prop where
  scope : reading.scope = .initial
  outer : reading.stack = [] → content.IsOuter ∧ content.elements.length ≤ 1
  root : content.elements ≠ [] → reading.root = none

theorem Reading.Admits.add (admits : reading.Admits content)
    (elements : content.elements = element :: after.elements)
    (outer : content.IsOuter → after.IsOuter) : (reading.add element).Admits after where
  scope := (reading.scope_add element).trans admits.scope
  outer none := by
    obtain ⟨isOuter, few⟩ := admits.outer (Reading.stack_add_eq_nil_iff.mp none)
    rw [elements, List.length_cons] at few
    exact ⟨outer isOuter, by omega⟩
  root more := by
    -- There is one root, so what comes after an element and holds others is inside of it.
    have inside : reading.stack ≠ [] := fun none => more <| by
      have few := (admits.outer none).2
      rw [elements, List.length_cons] at few
      exact List.eq_nil_of_length_eq_zero (by omega)
    rw [Reading.root_add inside]
    exact admits.root (by simp [elements])

/-- A content adds its elements, one after the other. -/
theorem Content.IsWellFormed.reading_pieces? (wellFormed : content.IsWellFormed)
    (admits : reading.Admits content) :
    reading.pieces? (.initial standsAlone size) content.pieces =
      some (content.elements.foldl Reading.add reading) := by
  induction content generalizing reading with
  | last text =>
      rw [Content.pieces, ← List.append_nil (textPieces text),
        Reading.pieces?_textPieces fun none => (admits.outer none).1]
      rfl
  | comment before words after ih =>
      obtain ⟨-, -, following⟩ := wellFormed
      have later : reading.Admits after :=
        ⟨admits.scope, fun none => ⟨(admits.outer none).1.2, (admits.outer none).2⟩, admits.root⟩
      rw [Content.pieces, Reading.pieces?_textPieces fun none => (admits.outer none).1.1]
      exact ih following later
  | element before tag inner closing after ihInner ihAfter =>
      obtain ⟨-, proper, inside, spaces, following⟩ := wellFormed
      have root : reading.root = none := admits.root (List.cons_ne_nil _ _)
      have opened : reading.open? (.initial standsAlone size) tag.text =
          some ⟨⟨⟨none, tag.name⟩, tag.element [], .initial⟩ :: reading.stack, none⟩ := by
        rw [proper.open?_of_tag? admits.scope root proper.tag?_text, proper.isEmptyTag,
          if_neg Bool.false_ne_true]
      -- The element is open while its content is read, so the content may be any.
      have within : Reading.Admits ⟨⟨⟨none, tag.name⟩, tag.element [], .initial⟩ ::
          reading.stack, none⟩ inner :=
        ⟨rfl, fun none => absurd none (List.cons_ne_nil _ _), fun _ => rfl⟩
      have whole : Element.inOrder { tag.element [] with
          children := inner.elements.reverse ++ (tag.element []).children } =
          tag.element inner.elements := by
        simp [Element.inOrder, TagText.element]
      have later : (reading.add (tag.element inner.elements)).Admits after :=
        admits.add rfl fun outer => outer.2
      rw [Content.pieces, Reading.pieces?_textPieces fun none => (admits.outer none).1.1,
        Reading.pieces?, Reading.piece?, opened, Option.bind_some, Reading.pieces?_append,
        ihInner inside within, Option.bind_some, Reading.foldl_add, Reading.pieces?,
        Reading.piece?, proper.close?_append spaces, Option.bind_some, whole, ← root]
      exact ihAfter following later
  | empty before tag after ih =>
      obtain ⟨-, proper, following⟩ := wellFormed
      have root : reading.root = none := admits.root (List.cons_ne_nil _ _)
      have later : (reading.add (tag.element [])).Admits after :=
        admits.add rfl fun outer => outer.2
      have opened : reading.open? (.initial standsAlone size) (tag.text ++ ['/']) =
          some (reading.add (tag.element [])) := by
        have shut : isEmptyTag (tag.text ++ ['/']) = true := by simp [isEmptyTag]
        rw [proper.open?_of_tag? admits.scope root proper.tag?_empty, shut, if_pos rfl]
      rw [Content.pieces, Reading.pieces?_textPieces fun none => (admits.outer none).1.1,
        Reading.pieces?, Reading.piece?, opened, Option.bind_some]
      exact ih following later

end Contents

end DartBindings.Markup
