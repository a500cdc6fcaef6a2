import DartBindings.Proofs.Markup.Reference
import Mathlib.Data.List.Basic

/-!
How tags are read. A tag of the grammar is cut into its name and its attributes, each with the text
between its quotes, and it ends at the first bracket outside of them.
-/

set_option autoImplicit false

namespace DartBindings.Markup

open Text

/-! ## Characters -/

section Chars

variable {c : Char} {text front rest : List Char}

theorem takeWhile_append_ended {p : Char → Bool} (all : ∀ c ∈ front, p c = true)
    (ended : ∀ c ∈ rest.head?, p c = false) : (front ++ rest).takeWhile p = front := by
  rw [List.takeWhile_append_of_pos all]
  cases rest with
  | nil => simp
  | cons c rest => simp [ended c rfl]

theorem isNameChar_of_isNameStart (start : isNameStart c = true) : isNameChar c = true := by
  unfold isNameStart at start
  unfold isNameChar
  split at start
  · rename_i ascii
    rw [if_pos ascii]
    simp only [Bool.or_eq_true, Char.isAlphanum] at start ⊢
    tauto
  · rename_i beyond
    rw [if_neg beyond]
    simp [start]

theorem isName_cons (named : isName text = true) :
    ∃ c rest, text = c :: rest ∧ isNameStart c = true ∧ ∀ d ∈ text, isNameChar d = true := by
  cases text with
  | nil => cases named
  | cons c rest =>
      simp only [isName, Bool.and_eq_true, List.all_eq_true] at named
      refine ⟨c, rest, rfl, named.1, fun d member => ?_⟩
      rcases List.mem_cons.mp member with rfl | later
      · exact isNameChar_of_isNameStart named.1
      · exact named.2 d later

/-- The characters of a name are none of the signs of markup. -/
theorem ne_of_mem_name (named : isName text = true) (member : c ∈ text) {sign : Char}
    (other : isNameChar sign = false) : c ≠ sign := by
  obtain ⟨-, -, -, -, chars⟩ := isName_cons named
  exact ne_of_class (chars c member) other

theorem isSpace_cases (space : isSpace c = true) : c = ' ' ∨ c = '\t' ∨ c = '\n' ∨ c = '\r' := by
  simpa [isSpace, or_assoc] using space

/-- No space is in a class that holds none of the four. -/
theorem eq_false_of_isSpace {p : Char → Bool} (space : isSpace c = true) (blank : p ' ' = false)
    (tab : p '\t' = false) (feed : p '\n' = false) (carriage : p '\r' = false) : p c = false := by
  rcases isSpace_cases space with rfl | rfl | rfl | rfl <;> assumption

theorem isTagNameChar_of_isSpace (space : isSpace c = true) : isTagNameChar c = false :=
  eq_false_of_isSpace space (by decide) (by decide) (by decide) (by decide)

theorem isSpace_of_isNameChar (char : isNameChar c = true) : isSpace c = false := by
  cases space : isSpace c with
  | false => rfl
  | true =>
      have other := isTagNameChar_of_isSpace space
      rw [isTagNameChar, char] at other
      cases other

/-- What stands first where spaces may stand before a sign. -/
theorem head_cases (spaces : IsSpaces front) {sign : Char}
    (first : c ∈ (front ++ sign :: rest).head?) : isSpace c = true ∨ c = sign := by
  cases front with
  | nil =>
      cases first
      exact .inr rfl
  | cons d front =>
      cases first
      exact .inl (spaces _ List.mem_cons_self)

theorem qualifiedName?_of_isName (named : isName text = true) :
    qualifiedName? text = some ⟨none, text⟩ := by
  have whole : text.takeWhile (· != ':') = text := by
    have apart : ∀ c ∈ text, (c != ':') = true := fun c member => by
      simpa using ne_of_mem_name named member (by decide : isNameChar ':' = false)
    simpa using @List.takeWhile_append_of_pos Char (· != ':') text [] apart
  have name : QualifiedName.ofText text = ⟨none, text⟩ := by
    unfold QualifiedName.ofText
    simp only [whole, List.drop_length]
  rw [qualifiedName?, name]
  simp [named]

theorem takeWhile_name (named : isName text = true)
    (ended : ∀ c ∈ rest.head?, isTagNameChar c = false) :
    (text ++ rest).takeWhile isTagNameChar = text := by
  obtain ⟨-, -, -, -, chars⟩ := isName_cons named
  exact takeWhile_append_ended (fun c member => by rw [isTagNameChar, chars c member, Bool.true_or])
    ended

theorem spaceLength_append (spaces : IsSpaces front) (ended : ∀ c ∈ rest.head?, isSpace c = false) :
    spaceLength (front ++ rest) = front.length := by
  rw [spaceLength, takeWhile_append_ended spaces ended]

theorem spaceLength_spaces (spaces : IsSpaces text) : spaceLength text = text.length := by
  have whole : spaceLength (text ++ []) = text.length := spaceLength_append spaces (by simp)
  rwa [List.append_nil] at whole

end Chars

/-! ## Attributes -/

section Attributes

variable {field : AttributeText} {fields : List AttributeText} {rest spaces : List Char}

namespace AttributeText.IsWellFormed

theorem isSpace_quote (wellFormed : field.IsWellFormed) : isSpace field.quote = false := by
  rcases wellFormed.quote with quote | quote <;> rw [quote] <;> decide

theorem quote_not_mem (wellFormed : field.IsWellFormed) : field.quote ∉ field.content := by
  apply wellFormed.value.not_mem
  · simp [isValueChar]
  · rcases wellFormed.quote with quote | quote <;> rw [quote] <;> decide

theorem body_head (wellFormed : field.IsWellFormed) (rest : List Char) :
    ∀ c ∈ (field.body ++ rest).head?, isSpace c = false := by
  obtain ⟨c, tail, name, -, chars⟩ := isName_cons wellFormed.name
  intro d first
  rw [AttributeText.body, name, List.cons_append, List.cons_append, List.head?_cons] at first
  cases first
  exact isSpace_of_isNameChar (chars c (name ▸ List.mem_cons_self))

/-- An attribute is read up to its second quote. -/
theorem attributeAt (wellFormed : field.IsWellFormed) (rest : List Char) :
    attributeAt (field.body ++ rest) = some (field.written, field.body.length) := by
  have content : (field.content ++ field.quote :: rest).takeWhile (· != field.quote) =
      field.content := by
    rw [List.takeWhile_append_of_pos]
    · simp
    · intro c member
      have apart : c ≠ field.quote := fun same => wellFormed.quote_not_mem (same ▸ member)
      simpa using apart
  have quote : (field.quote != '"' && field.quote != '\'') = false := by
    rcases wellFormed.quote with quote | quote <;> rw [quote] <;> decide
  have after : spaceLength (field.afterSign ++ field.quote :: (field.content ++
      field.quote :: rest)) = field.afterSign.length :=
    spaceLength_append wellFormed.afterSign (by simp [wellFormed.isSpace_quote])
  have before : spaceLength (field.beforeSign ++ '=' :: (field.afterSign ++ field.quote ::
      (field.content ++ field.quote :: rest))) = field.beforeSign.length :=
    spaceLength_append wellFormed.beforeSign (by simp; decide)
  have name : (field.name ++ (field.beforeSign ++ '=' :: (field.afterSign ++ field.quote ::
      (field.content ++ field.quote :: rest)))).takeWhile isTagNameChar = field.name := by
    refine takeWhile_name wellFormed.name fun c first => ?_
    rcases head_cases wellFormed.beforeSign first with space | rfl
    · exact isTagNameChar_of_isSpace space
    · decide
  have text : field.body ++ rest = field.name ++ (field.beforeSign ++ '=' :: (field.afterSign ++
      field.quote :: (field.content ++ field.quote :: rest))) := by
    simp [AttributeText.body]
  rw [text, Markup.attributeAt, name, qualifiedName?_of_isName wellFormed.name]
  simp only [Option.bind_eq_bind, Option.bind_some, List.drop_left, before, after, content, quote,
    List.head?_cons, List.drop_one, List.tail_cons]
  have longer :
      (field.content.length == (field.content ++ field.quote :: rest).length) = false := by
    simp
  rw [if_neg (by simp), if_neg Bool.false_ne_true, longer, if_neg Bool.false_ne_true]
  have length : field.name.length + field.beforeSign.length + 1 + field.afterSign.length + 1 +
      field.content.length + 1 = field.body.length := by
    simp only [AttributeText.body, List.length_append, List.length_cons, List.length_nil]
    omega
  rw [length]
  rfl

theorem attributes?_append (wellFormed : field.IsWellFormed) (rest : List Char) :
    attributes? (field.text ++ rest) = (attributes? rest).map (field.written :: ·) := by
  obtain ⟨c, before, spaces⟩ := List.exists_cons_of_ne_nil wellFormed.apart
  have first : isSpace c = true := wellFormed.before c (spaces ▸ List.mem_cons_self)
  have others : spaceLength (before ++ (field.body ++ rest)) = before.length :=
    spaceLength_append
      (fun d member => wellFormed.before d (spaces ▸ List.mem_cons_of_mem _ member))
      (wellFormed.body_head rest)
  have longer : (before.length == (before ++ (field.body ++ rest)).length) = false := by
    obtain ⟨d, tail, name, -⟩ := isName_cons wellFormed.name
    simp [AttributeText.body, name]
  have next : (before ++ (field.body ++ rest)).drop (before.length + field.body.length) = rest := by
    rw [← List.append_assoc, ← List.length_append, List.drop_left]
  rw [AttributeText.text, spaces, List.append_assoc, List.cons_append, attributes?]
  simp only [first, others, longer, List.drop_left, wellFormed.attributeAt, next,
    Option.bind_eq_bind, Option.bind_some, Bool.not_true, Bool.false_eq_true, ↓reduceIte]
  cases attributes? rest <;> rfl

end AttributeText.IsWellFormed

theorem attributes?_spaces (isSpaces : IsSpaces spaces) : attributes? spaces = some [] := by
  cases spaces with
  | nil => rw [attributes?]
  | cons c spaces =>
      have others : spaceLength spaces = spaces.length :=
        spaceLength_spaces fun d member => isSpaces d (List.mem_cons_of_mem _ member)
      rw [attributes?]
      simp [isSpaces c List.mem_cons_self, others]

theorem attributes?_fields (wellFormed : ∀ field ∈ fields, field.IsWellFormed)
    (isSpaces : IsSpaces spaces) :
    attributes? (fields.flatMap AttributeText.text ++ spaces) =
      some (fields.map AttributeText.written) := by
  induction fields with
  | nil => exact attributes?_spaces isSpaces
  | cons field fields ih =>
      rw [List.forall_mem_cons] at wellFormed
      rw [List.flatMap_cons, List.append_assoc, wellFormed.1.attributes?_append,
        ih wellFormed.2, List.map_cons]
      rfl

end Attributes

/-! ## Tags -/

section Tags

variable {tag : TagText} {front text rest : List Char}

/-- The text is left outside quotes and without a bracket that ends a tag. -/
def IsInTag (text : List Char) : Prop :=
  ∀ rest, tagEnd? none (text ++ rest) = (tagEnd? none rest).map (· + text.length)

theorem IsInTag.append (first : IsInTag front) (second : IsInTag text) :
    IsInTag (front ++ text) := by
  intro rest
  rw [List.append_assoc, first, second, Option.map_map, List.length_append]
  congr 1
  funext n
  simp only [Function.comp_apply]
  omega

theorem IsInTag.flatMap {α : Type} {write : α → List Char} {items : List α}
    (each : ∀ item ∈ items, IsInTag (write item)) : IsInTag (items.flatMap write) := by
  induction items with
  | nil => exact fun rest => by simp
  | cons item items ih =>
      rw [List.forall_mem_cons] at each
      exact each.1.append (ih each.2)

theorem isInTag_plain (plain : ∀ c ∈ text, c ≠ '>' ∧ c ≠ '"' ∧ c ≠ '\'') : IsInTag text := by
  intro rest
  induction text with
  | nil => simp
  | cons c text ih =>
      rw [List.forall_mem_cons] at plain
      obtain ⟨⟨noEnd, noDouble, noSingle⟩, later⟩ := plain
      rw [List.cons_append, tagEnd?]
      simp only [noEnd, noDouble, noSingle, decide_false, Bool.or_self, Bool.false_eq_true,
        ↓reduceIte, ih later, Option.map_map]
      rfl

theorem tagEnd?_quoted {quote : Char} (outside : quote ∉ text) (rest : List Char) :
    tagEnd? (some quote) (text ++ quote :: rest) =
      (tagEnd? none rest).map (· + (text.length + 1)) := by
  induction text with
  | nil => simp [tagEnd?]
  | cons c text ih =>
      rw [List.mem_cons, not_or] at outside
      rw [List.cons_append, tagEnd?]
      simp only [Ne.symm outside.1, ↓reduceIte, ih outside.2, Option.map_map]
      rfl

theorem isInTag_spaces (isSpaces : IsSpaces text) : IsInTag text :=
  isInTag_plain fun c member => by
    rcases isSpace_cases (isSpaces c member) with rfl | rfl | rfl | rfl <;> decide

theorem isInTag_name (named : isName text = true) : IsInTag text :=
  isInTag_plain fun c member => ⟨ne_of_mem_name named member (by decide),
    ne_of_mem_name named member (by decide), ne_of_mem_name named member (by decide)⟩

theorem AttributeText.IsWellFormed.isInTag {field : AttributeText}
    (wellFormed : field.IsWellFormed) : IsInTag field.text := by
  have quoted : IsInTag (field.quote :: (field.content ++ [field.quote])) := by
    intro rest
    have other : field.quote ≠ '>' ∧ (field.quote = '"' ∨ field.quote = '\'') := by
      rcases wellFormed.quote with quote | quote <;> rw [quote] <;> decide
    rw [List.cons_append, List.append_assoc, List.singleton_append, tagEnd?]
    simp only [other.1, ↓reduceIte, Bool.or_eq_true, decide_eq_true_eq, other.2]
    rw [tagEnd?_quoted wellFormed.quote_not_mem, Option.map_map, List.length_cons,
      List.length_append]
    rfl
  have sign : IsInTag ['='] := isInTag_plain (by simp)
  exact (isInTag_spaces wellFormed.before).append ((isInTag_name wellFormed.name).append
    ((isInTag_spaces wellFormed.beforeSign).append
      (sign.append ((isInTag_spaces wellFormed.afterSign).append quoted))))

theorem TagText.IsWellFormed.isInTag (wellFormed : tag.IsWellFormed) : IsInTag tag.text := by
  have fields : IsInTag (tag.attributes.flatMap AttributeText.text) :=
    IsInTag.flatMap fun field member => (wellFormed.attributes field member).isInTag
  exact (isInTag_name wellFormed.name).append (fields.append (isInTag_spaces wellFormed.after))

/-- A text that does not end like the tag of an element without content. -/
def IsLeftOpen (text : List Char) : Prop :=
  '/' ∉ text.getLast?

theorem IsLeftOpen.append (first : IsLeftOpen front) (second : IsLeftOpen text) :
    IsLeftOpen (front ++ text) := by
  intro last
  rw [List.getLast?_append, Option.mem_def, Option.or_eq_some_iff] at last
  rcases last with last | ⟨-, last⟩
  · exact second last
  · exact first last

theorem IsLeftOpen.flatMap {α : Type} {write : α → List Char} {items : List α}
    (each : ∀ item ∈ items, IsLeftOpen (write item)) : IsLeftOpen (items.flatMap write) := by
  induction items with
  | nil => exact fun last => nomatch last
  | cons item items ih =>
      rw [List.forall_mem_cons] at each
      exact each.1.append (ih each.2)

theorem isLeftOpen_of_not_mem (apart : '/' ∉ text) : IsLeftOpen text :=
  fun last => apart (List.mem_of_getLast? last)

theorem TagText.IsWellFormed.isEmptyTag (wellFormed : tag.IsWellFormed) :
    isEmptyTag tag.text = false := by
  have spaces {text : List Char} (isSpaces : IsSpaces text) : IsLeftOpen text :=
    isLeftOpen_of_not_mem fun member => absurd (isSpaces _ member) (by decide)
  have name : IsLeftOpen tag.name :=
    isLeftOpen_of_not_mem fun member =>
      ne_of_mem_name wellFormed.name member (by decide : isNameChar '/' = false) rfl
  have fields : IsLeftOpen (tag.attributes.flatMap AttributeText.text) := by
    refine IsLeftOpen.flatMap fun field member last => ?_
    have quote : field.text.getLast? = some field.quote := by
      simp [AttributeText.text, AttributeText.body, List.getLast?_append, List.getLast?_cons]
    rw [quote] at last
    rcases (wellFormed.attributes field member).quote with same | same <;> rw [same] at last <;>
      cases last
  have whole : IsLeftOpen tag.text := name.append (fields.append (spaces wellFormed.after))
  rw [Markup.isEmptyTag, beq_eq_false_iff_ne]
  exact whole

/-- A space comes after the name, if anything does. -/
theorem TagText.IsWellFormed.isSpace_later (wellFormed : tag.IsWellFormed) :
    ∀ c ∈ tag.later.head?, isSpace c = true := by
  intro c first
  rw [TagText.later] at first
  cases fields : tag.attributes with
  | nil =>
      rw [fields, List.flatMap_nil, List.nil_append] at first
      exact wellFormed.after c (List.mem_of_mem_head? first)
  | cons field others =>
      have before := wellFormed.attributes field (fields ▸ List.mem_cons_self)
      obtain ⟨d, spaces, same⟩ := List.exists_cons_of_ne_nil before.apart
      rw [fields, List.flatMap_cons, AttributeText.text, same] at first
      cases first
      exact before.before _ (same ▸ List.mem_cons_self)

theorem TagText.IsWellFormed.attributes?_later (wellFormed : tag.IsWellFormed) :
    attributes? tag.later = some (tag.attributes.map AttributeText.written) :=
  attributes?_fields wellFormed.attributes wellFormed.after

theorem TagText.IsWellFormed.tag?_text (wellFormed : tag.IsWellFormed) :
    tag? tag.text = some ⟨⟨none, tag.name⟩, tag.attributes.map AttributeText.written⟩ := by
  have name : tag.text.takeWhile isTagNameChar = tag.name :=
    takeWhile_name wellFormed.name fun c first =>
      isTagNameChar_of_isSpace (wellFormed.isSpace_later c first)
  rw [tag?, wellFormed.isEmptyTag, if_neg Bool.false_ne_true, name,
    qualifiedName?_of_isName wellFormed.name, TagText.text, List.drop_left]
  simp [wellFormed.attributes?_later]

theorem TagText.IsWellFormed.tag?_empty (wellFormed : tag.IsWellFormed) :
    tag? (tag.text ++ ['/']) =
      some ⟨⟨none, tag.name⟩, tag.attributes.map AttributeText.written⟩ := by
  have shut : Markup.isEmptyTag (tag.text ++ ['/']) = true := by simp [Markup.isEmptyTag]
  have same : tag? (tag.text ++ ['/']) = tag? tag.text := by
    unfold tag?
    rw [shut, wellFormed.isEmptyTag, if_pos rfl, if_neg Bool.false_ne_true, List.dropLast_concat]
  rw [same, wellFormed.tag?_text]

end Tags

end DartBindings.Markup
