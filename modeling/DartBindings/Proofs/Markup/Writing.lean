import DartBindings.Proofs.Markup.Heading

/-!
A way to write elements. Every character of a value is written as a reference, so any value can be
written that is made of characters of markup.
-/

set_option autoImplicit false

namespace DartBindings.Markup

open Text

/-- A character that is written. -/
def isWrittenChar (c : Char) : Bool :=
  isMarkupChar c && c != '\r'

/-- The reference to a character by its number. -/
def referenceTo (c : Char) : List Char :=
  '&' :: ('#' :: (Nat.digits 10 c.toNat).reverse.map Nat.digitChar ++ [';'])

def AttributeText.stating (name value : String) : AttributeText where
  before := [' ']
  name := name.toList
  beforeSign := []
  afterSign := []
  quote := '"'
  content := value.toList.flatMap referenceTo
  value := value.toList

def TagText.stating (name : String) (fields : List (String × String)) : TagText where
  name := name.toList
  attributes := fields.map fun (name, value) => .stating name value
  after := []

def Content.ofTags : List TagText → Content
  | [] => .last []
  | tag :: tags => .empty [] tag (.ofTags tags)

/-- The document whose root has these tags in it. -/
def DocumentText.ofTags (tag : TagText) (tags : List TagText) : DocumentText where
  heading := none
  content := .element [] tag (.ofTags tags) [] (.last [])
  root := tag.element (tags.map (·.element []))

section Characters

variable {c d : Char}

theorem isNumeral_digits (some : c.toNat ≠ 0) :
    IsNumeral 10 ((Nat.digits 10 c.toNat).reverse.map Nat.digitChar) c.toNat := by
  refine ⟨(Nat.digits 10 c.toNat).reverse, ?_, ?_, ?_, ?_⟩
  · simpa [Nat.digits_ne_nil_iff_ne_zero] using some
  · intro digit member
    exact Nat.digits_lt_base (by decide) (List.mem_reverse.mp member)
  · rw [List.forall₂_map_left_iff]
    exact List.forall₂_same.mpr fun digit _ => List.mem_cons_self
  · rw [List.reverse_reverse, Nat.ofDigits_digits]

theorem spells_references {isPlain : Char → Bool} {value : List Char}
    (legal : ∀ c ∈ value, isMarkupChar c = true) :
    Spells isPlain (value.flatMap referenceTo) value := by
  induction value with
  | nil => exact .nil
  | cons c value ih =>
      obtain ⟨first, others⟩ := List.forall_mem_cons.mp legal
      rw [List.flatMap_cons, referenceTo, List.cons_append, List.append_assoc,
        List.singleton_append]
      exact .reference (.decimal first (isNumeral_digits (toNat_ne_zero_of_isMarkupChar first)))
        (ih others)

theorem isWrittenChar_of_mem_referenceTo (member : d ∈ referenceTo c) : isWrittenChar d = true := by
  simp only [referenceTo, List.cons_append, List.mem_cons, List.mem_append, List.mem_map,
    List.mem_reverse, List.not_mem_nil, or_false] at member
  rcases member with rfl | rfl | ⟨digit, among, rfl⟩ | rfl
  · decide
  · decide
  · have small : ∀ digit < 10, isWrittenChar (Nat.digitChar digit) = true := by decide
    exact small digit (Nat.digits_lt_base (by decide) among)
  · decide

end Characters

/-- A name in ASCII that declares no namespace. -/
def isPlainName (name : String) : Bool :=
  isName name.toList && name.toList.all isWrittenChar && name.toList != declarationName

structure TagText.IsWritten (tag : TagText) : Prop where
  wellFormed : tag.IsWellFormed
  chars : ∀ c ∈ tag.text, isWrittenChar c = true

section Tags

variable {name : String} {fields : List (String × String)} {tag : TagText} {tags : List TagText}

theorem TagText.isWritten_stating (named : isPlainName name = true)
    (names : ∀ field ∈ fields, isPlainName field.1 = true) (distinct : (fields.map (·.1)).Nodup)
    (values : ∀ field ∈ fields, ∀ c ∈ field.2.toList, isMarkupChar c = true) :
    (TagText.stating name fields).IsWritten := by
  simp only [isPlainName, Bool.and_eq_true, List.all_eq_true, bne_iff_ne] at named names
  constructor
  · refine ⟨named.1.1, fun field among => ?_, ?_, by simp [TagText.stating, IsSpaces]⟩
    · obtain ⟨⟨name, value⟩, stated, rfl⟩ := List.mem_map.mp among
      have field := names _ stated
      exact ⟨by simp [AttributeText.stating, IsSpaces, isSpace], List.cons_ne_nil _ _, field.1.1,
        field.2, isSpaces_nil, isSpaces_nil, .inl rfl, spells_references (values _ stated)⟩
    · have same : (TagText.stating name fields).attributes.map AttributeText.name =
          (fields.map (·.1)).map String.toList := by
        rw [TagText.stating, List.map_map, List.map_map]
        rfl
      have apart : Function.Injective String.toList := fun _ _ => String.toList_injective
      rw [same]
      exact List.Nodup.map apart distinct
  · intro c member
    simp only [TagText.text, TagText.later, TagText.stating, List.mem_append, List.mem_flatMap,
      List.mem_map, List.not_mem_nil, or_false] at member
    rcases member with inside | ⟨field, ⟨⟨name, value⟩, stated, rfl⟩, inside⟩
    · exact named.1.2 c inside
    · simp only [AttributeText.text, AttributeText.body, AttributeText.stating, List.mem_append,
        List.mem_cons, List.mem_flatMap, List.not_mem_nil, or_false, false_or] at inside
      rcases inside with rfl | within | rfl | rfl | ⟨d, -, within⟩ | rfl
      · decide
      · exact (names _ stated).1.2 c within
      · decide
      · decide
      · exact isWrittenChar_of_mem_referenceTo within
      · decide

@[simp] theorem TagText.element_stating (children : List Element) :
    (TagText.stating name fields).element children = ⟨name, fields, children⟩ := by
  simp [TagText.element, TagText.stating, AttributeText.stating, Function.comp_def]

theorem Content.elements_ofTags (tags : List TagText) :
    (Content.ofTags tags).elements = tags.map (·.element []) := by
  induction tags with
  | nil => rfl
  | cons tag tags ih => rw [Content.ofTags, Content.elements, ih, List.map_cons]

theorem DocumentText.isWellFormed_ofTags (root : tag.IsWritten)
    (each : ∀ tag ∈ tags, tag.IsWritten) :
    (DocumentText.ofTags tag tags).IsWellFormed ∧
      ∀ c ∈ (DocumentText.ofTags tag tags).text, isWrittenChar c = true := by
  have inner : (Content.ofTags tags).IsWellFormed ∧
      ∀ c ∈ (Content.ofTags tags).text, isWrittenChar c = true := by
    induction tags with
    | nil => exact ⟨isData_nil, by simp [Content.ofTags, Content.text]⟩
    | cons tag tags ih =>
        obtain ⟨first, others⟩ := List.forall_mem_cons.mp each
        obtain ⟨wellFormed, chars⟩ := ih others
        refine ⟨⟨isData_nil, first.wellFormed, wellFormed⟩, fun c member => ?_⟩
        simp only [Content.ofTags, Content.text, List.nil_append, List.mem_cons,
          List.mem_append] at member
        rcases member with rfl | inside | rfl | rfl | later
        · decide
        · exact first.chars c inside
        · decide
        · decide
        · exact chars c later
  have chars : ∀ c ∈ (DocumentText.ofTags tag tags).text, isWrittenChar c = true := by
    intro c member
    simp only [DocumentText.text, DocumentText.ofTags, Content.text, List.nil_append, List.mem_cons,
      List.mem_append, List.append_nil, List.not_mem_nil, or_false] at member
    rcases member with rfl | inside | rfl | within | rfl | rfl | name | rfl
    · decide
    · exact root.chars c inside
    · decide
    · exact inner.2 c within
    · decide
    · decide
    · exact root.chars c (List.mem_append_left _ name)
    · decide
  refine ⟨⟨by simp [DocumentText.ofTags],
    ⟨isData_nil, root.wellFormed, inner.1, isSpaces_nil, isData_nil⟩, ⟨isSpaces_nil, isSpaces_nil⟩,
    ?_, fun c member => ?_⟩, chars⟩
  · simp [DocumentText.ofTags, Content.elements, Content.elements_ofTags]
  · have written := chars c member
    simp only [isWrittenChar, Bool.and_eq_true] at written
    exact written.1

end Tags

end DartBindings.Markup
