import DartBindings.Proofs.Declaration.Spelling
import DartBindings.Proofs.Source.Cuts

/-!
Types with blanks anywhere between their parts. The splitter of a parameter list passes over such
a type in one piece, whatever it separates.
-/

set_option autoImplicit false

namespace DartBindings.Declaration

open Text Source

/-! ## Texts that are passed over -/

/-- A text over which the splitter passes, outside default values, with these brackets open. -/
def Through (separator : Char) (depths : Depths) (text : List Char) : Prop :=
  ∀ rest, cutPieces [separator] (.within depths) (text ++ rest) =
    extendFirst text (cutPieces [separator] (.within depths) rest)

section Through

variable {separator : Char} {depths : Depths} {text : List Char}

theorem through_nil : Through separator depths [] :=
  fun _ => (extendFirst_nil (cutPieces_ne_nil _ _ _)).symm

theorem Through.append {first last : List Char} (before : Through separator depths first)
    (after : Through separator depths last) : Through separator depths (first ++ last) := by
  intro rest
  rw [List.append_assoc, before, after, extendFirst_append]

theorem through_char {c : Char} (quote : isQuote c = false)
    (uncut : c = separator → depths ≠ .level)
    (step : (SplitState.within depths).step c = .within depths) :
    Through separator depths [c] := by
  intro rest
  rw [List.singleton_append, cutPieces_char quote uncut, step]

theorem through_word {word : List Char} (chars : ∀ c ∈ word, isWordChar c = true)
    (proper : isSeparator separator = true) : Through separator depths word := by
  have nested : Nested false word := Nested.word chars
  exact nested.cutPieces proper nofun

theorem through_blanks {blanks : List Char} (blank : ∀ c ∈ blanks, isBlank c = true)
    (proper : isSeparator separator = true) : Through separator depths blanks := by
  have solid : isBlank separator = false := by
    simp only [isSeparator, Bool.or_eq_true, beq_iff_eq] at proper
    rcases proper with (rfl | rfl) | rfl <;> decide
  exact cutPieces_blanks blank solid rfl

theorem Through.group {opening closing : Char} (paired : Paired opening closing)
    (proper : isSeparator separator = true)
    (inner : ∀ depths : Depths, depths ≠ .level → Through separator depths text) :
    Through separator depths (opening :: (text ++ [closing])) := by
  intro rest
  obtain ⟨kind, enter, leave⟩ := paired.step
  have quotes : isQuote opening = false ∧ isQuote closing = false := by cases paired <;> decide
  have cuts : opening ≠ separator ∧ closing ≠ separator := by
    simp only [isSeparator, Bool.or_eq_true, beq_iff_eq] at proper
    rcases proper with (rfl | rfl) | rfl <;> cases paired <;> decide
  rw [List.cons_append, cutPieces_char quotes.1 fun same => absurd same cuts.1, enter,
    List.append_assoc, inner _ (depths.enter_ne_level kind), List.singleton_append,
    cutPieces_char quotes.2 fun same => absurd same cuts.2, leave, depths.leave_enter,
    ← extendFirst_append, ← extendFirst_append]
  simp

end Through

/-! ## Types -/

/-- A text with what stands around it. -/
structure Spaced where
  before : List Char
  text : List Char
  after : List Char

def Spaced.written (spaced : Spaced) : List Char :=
  spaced.before ++ (spaced.text ++ spaced.after)

/-- Only blanks stand around the text. -/
structure Spaced.Blank (spaced : Spaced) : Prop where
  before : ∀ c ∈ spaced.before, isBlank c = true
  after : ∀ c ∈ spaced.after, isBlank c = true

def spacedList (separator : Char) (items : List Spaced) : List Char :=
  [separator].intercalate (items.map Spaced.written)

/-- A type as it may be written: `A<B, C>`, `[A]`, `[K: V]`, `(A, B) -> C`, `(A)`, `A?` or `A!`,
with any blanks around its parts, save before the mark of an optional type. -/
inductive SpacedType : List Char → Prop where
  | name {word} : IsWord word → SpacedType word
  | generic {word gap : List Char} {arguments : List Spaced} : IsWord word →
      (∀ c ∈ gap, isBlank c = true) → (∀ argument ∈ arguments, argument.Blank) →
      (∀ argument ∈ arguments, SpacedType argument.text) →
      SpacedType (word ++ (gap ++ '<' :: (spacedList ',' arguments ++ ['>'])))
  | list {element : Spaced} : element.Blank → SpacedType element.text →
      SpacedType ('[' :: (element.written ++ [']']))
  | dictionary {key value : Spaced} : key.Blank → value.Blank → SpacedType key.text →
      SpacedType value.text → SpacedType ('[' :: (spacedList ':' [key, value] ++ [']']))
  | function {arguments : List Spaced} {before after result : List Char} :
      (∀ argument ∈ arguments, argument.Blank) →
      (∀ argument ∈ arguments, SpacedType argument.text) →
      (∀ c ∈ before, isBlank c = true) → (∀ c ∈ after, isBlank c = true) → SpacedType result →
      SpacedType ('(' :: (spacedList ',' arguments ++ [')'])
        ++ (before ++ ("->".toList ++ (after ++ result))))
  | grouped {inner : Spaced} : inner.Blank → SpacedType inner.text →
      SpacedType ('(' :: (inner.written ++ [')']))
  | marked {type : List Char} {mark : Char} : SpacedType type → mark = '?' ∨ mark = '!' →
      SpacedType (type ++ [mark])

section Lists

variable {separator joining : Char} {depths : Depths} {items : List Spaced}

theorem spacedList_cons_cons (item next : Spaced) (items : List Spaced) :
    spacedList joining (item :: next :: items) =
      item.written ++ ([joining] ++ spacedList joining (next :: items)) := by
  simp [spacedList, List.intercalate_cons_cons]

theorem Through.spaced {item : Spaced} (blank : item.Blank)
    (inner : Through separator depths item.text) (proper : isSeparator separator = true) :
    Through separator depths item.written :=
  (through_blanks blank.before proper).append (inner.append (through_blanks blank.after proper))

theorem through_spacedList (joins : joins joining = true) (deep : depths ≠ .level)
    (blank : ∀ item ∈ items, item.Blank)
    (inner : ∀ item ∈ items, Through separator depths item.text)
    (proper : isSeparator separator = true) :
    Through separator depths (spacedList joining items) := by
  induction items with
  | nil => exact through_nil
  | cons item items ih =>
      obtain ⟨blankItem, blankItems⟩ := List.forall_mem_cons.mp blank
      obtain ⟨innerItem, innerItems⟩ := List.forall_mem_cons.mp inner
      have first := Through.spaced blankItem innerItem proper
      cases items with
      | nil => simpa [spacedList] using first
      | cons next items =>
          have mark : Through separator depths [joining] := by
            simp only [Source.joins, Bool.or_eq_true, beq_iff_eq] at joins
            rcases joins with rfl | rfl <;> exact through_char (by decide) (fun _ => deep) rfl
          rw [spacedList_cons_cons]
          exact first.append (mark.append (ih blankItems innerItems))

end Lists

/-- The splitter passes over a type. -/
theorem SpacedType.through {text : List Char} (type : SpacedType text) {separator : Char}
    (proper : isSeparator separator = true) (depths : Depths) :
    Through separator depths text := by
  induction type generalizing depths with
  | name named => exact through_word named.chars proper
  | generic named gap blank _ inner =>
      refine (through_word named.chars proper).append ((through_blanks gap proper).append ?_)
      exact .group .angle proper fun depths deep => through_spacedList (by decide) deep blank
        (fun item member => inner item member depths) proper
  | list blank _ inner =>
      exact .group .square proper fun depths _ => .spaced blank (inner depths) proper
  | grouped blank _ inner =>
      exact .group .round proper fun depths _ => .spaced blank (inner depths) proper
  | @dictionary key value blankKey blankValue _ _ key value =>
      refine .group .square proper fun depths deep =>
        through_spacedList (by decide) deep ?_ ?_ proper
      · exact List.forall_mem_cons.mpr ⟨blankKey, List.forall_mem_singleton.mpr blankValue⟩
      · exact List.forall_mem_cons.mpr ⟨key depths, List.forall_mem_singleton.mpr (value depths)⟩
  | function blank _ before after _ inner result =>
      have nested : Nested false "->".toList := .arrow
      have arrow : Through separator depths "->".toList := nested.cutPieces proper nofun
      refine Through.append (.group .round proper fun depths deep => through_spacedList (by decide)
        deep blank (fun item member => inner item member depths) proper) ?_
      exact (through_blanks before proper).append (arrow.append
        ((through_blanks after proper).append (result depths)))
  | @marked type mark _ marks inner =>
      have nested : Nested false [mark] := by
        rcases marks with rfl | rfl <;> exact .char (by decide)
      have passed : Through separator depths [mark] := nested.cutPieces proper nofun
      exact (inner depths).append passed

theorem SpacedType.solid {text : List Char} (type : SpacedType text) : IsSolid text := by
  have single (c : Char) (solid : isBlank c = false) : IsSolid [c] := isSolid_singleton solid
  induction type with
  | name named => exact isSolid_word named
  | @generic word gap arguments named _ _ _ _ =>
      have whole := (isSolid_word named).append (gap ++ '<' :: spacedList ',' arguments)
        (single '>' (by decide))
      simpa only [List.append_assoc, List.cons_append] using whole
  | list => exact (single '[' (by decide)).append _ (single ']' (by decide))
  | dictionary => exact (single '[' (by decide)).append _ (single ']' (by decide))
  | grouped => exact (single '(' (by decide)).append _ (single ')' (by decide))
  | @function arguments before after result _ _ _ _ _ _ ends =>
      have whole := (single '(' (by decide)).append
        (spacedList ',' arguments ++ ')' :: (before ++ ("->".toList ++ after))) ends
      simpa only [List.append_assoc, List.cons_append, List.nil_append] using whole
  | @marked type mark _ marks inner =>
      have last : isBlank mark = false := by rcases marks with rfl | rfl <;> decide
      exact inner.append [] (single mark last)

/-! ## Characters -/

def isSpacedChar (c : Char) : Bool :=
  isNestedChar c || isBlank c

theorem isSpacedChar_of_isBlank {c : Char} (blank : isBlank c = true) : isSpacedChar c = true := by
  rw [isSpacedChar, blank, Bool.or_true]

theorem isSpacedChar_of_isWordChar {c : Char} (word : isWordChar c = true) :
    isSpacedChar c = true := by
  simp [isSpacedChar, isNestedChar, isTypeChar, word]

theorem Spaced.Blank.chars {item : Spaced} (blank : item.Blank)
    (inner : ∀ c ∈ item.text, isSpacedChar c = true) :
    ∀ c ∈ item.written, isSpacedChar c = true := by
  refine List.forall_mem_append.mpr ⟨?_, List.forall_mem_append.mpr ⟨inner, ?_⟩⟩
  · exact fun c member => isSpacedChar_of_isBlank (blank.before c member)
  · exact fun c member => isSpacedChar_of_isBlank (blank.after c member)

theorem chars_spacedList {joining : Char} {items : List Spaced}
    (mark : isSpacedChar joining = true) (blank : ∀ item ∈ items, item.Blank)
    (inner : ∀ item ∈ items, ∀ c ∈ item.text, isSpacedChar c = true) :
    ∀ c ∈ spacedList joining items, isSpacedChar c = true := by
  intro c member
  rcases mem_intercalate member with ⟨piece, among, inside⟩ | separator
  · obtain ⟨item, listed, rfl⟩ := List.mem_map.mp among
    exact (blank item listed).chars (inner item listed) c inside
  · exact List.mem_singleton.mp separator ▸ mark

theorem SpacedType.chars {text : List Char} (type : SpacedType text) :
    ∀ c ∈ text, isSpacedChar c = true := by
  have gaps {gap : List Char} (blank : ∀ c ∈ gap, isBlank c = true) :
      ∀ c ∈ gap, isSpacedChar c = true :=
    fun c member => isSpacedChar_of_isBlank (blank c member)
  have words {word : List Char} (named : IsWord word) : ∀ c ∈ word, isSpacedChar c = true :=
    fun c member => isSpacedChar_of_isWordChar (named.chars c member)
  induction type with
  | name named => exact words named
  | generic named gap blank _ inner =>
      have list := @chars_spacedList ',' _ (by decide) blank inner
      simp only [List.forall_mem_append, List.forall_mem_cons]
      exact ⟨words named, gaps gap, by decide, list, by decide, nofun⟩
  | list blank _ inner =>
      simp only [List.forall_mem_append, List.forall_mem_cons]
      exact ⟨by decide, blank.chars inner, by decide, nofun⟩
  | grouped blank _ inner =>
      simp only [List.forall_mem_append, List.forall_mem_cons]
      exact ⟨by decide, blank.chars inner, by decide, nofun⟩
  | @dictionary key value blankKey blankValue _ _ keyChars valueChars =>
      have list := @chars_spacedList ':' [key, value] (by decide)
        (List.forall_mem_cons.mpr ⟨blankKey, List.forall_mem_singleton.mpr blankValue⟩)
        (List.forall_mem_cons.mpr ⟨keyChars, List.forall_mem_singleton.mpr valueChars⟩)
      simp only [List.forall_mem_append, List.forall_mem_cons]
      exact ⟨by decide, list, by decide, nofun⟩
  | function blank _ before after _ inner result =>
      have list := @chars_spacedList ',' _ (by decide) blank inner
      have arrow : ∀ c ∈ "->".toList, isSpacedChar c = true := List.all_eq_true.mp rfl
      simp only [List.forall_mem_append, List.forall_mem_cons]
      exact ⟨⟨by decide, list, by decide, nofun⟩, gaps before, arrow, gaps after, result⟩
  | @marked type mark _ marks inner =>
      have last : isSpacedChar mark = true := by rcases marks with rfl | rfl <;> decide
      exact List.forall_mem_append.mpr ⟨inner, List.forall_mem_singleton.mpr last⟩

/-- Nothing in a type is taken out with the comments. -/
theorem SpacedType.stripComments {text : List Char} (type : SpacedType text) (rest : List Char) :
    stripComments (text ++ rest) = text ++ stripComments rest :=
  stripComments_class type.chars (by decide) (by decide) rest

/-! ## Spelled types -/

def afterBlank (text : List Char) : Spaced :=
  ⟨[' '], text, []⟩

/-- Texts with a blank in front of each but the first. -/
def tidy : List (List Char) → List Spaced
  | [] => []
  | text :: texts => ⟨[], text, []⟩ :: texts.map afterBlank

theorem blank_of_mem_tidy {texts : List (List Char)} {item : Spaced} (member : item ∈ tidy texts) :
    item.Blank := by
  have blank : ∀ c ∈ [' '], isBlank c = true := List.all_eq_true.mp rfl
  cases texts with
  | nil => cases member
  | cons text texts =>
      rcases List.mem_cons.mp member with rfl | later
      · exact ⟨nofun, nofun⟩
      · obtain ⟨other, _, rfl⟩ := List.mem_map.mp later
        exact ⟨blank, nofun⟩

theorem text_of_mem_tidy {texts : List (List Char)} {item : Spaced} (member : item ∈ tidy texts) :
    item.text ∈ texts := by
  cases texts with
  | nil => cases member
  | cons text texts =>
      rcases List.mem_cons.mp member with rfl | later
      · exact List.mem_cons_self
      · obtain ⟨other, among, rfl⟩ := List.mem_map.mp later
        exact List.mem_cons_of_mem _ among

theorem spacedList_tidy (joining : Char) (texts : List (List Char)) :
    spacedList joining (tidy texts) = listed joining texts := by
  have blanks (text : List Char) (texts : List (List Char)) :
      spacedList joining ((text :: texts).map afterBlank) =
        ' ' :: listed joining (text :: texts) := by
    induction texts generalizing text with
    | nil => simp [spacedList, Spaced.written, afterBlank]
    | cons next texts ih =>
        rw [List.map_cons, List.map_cons, spacedList_cons_cons, ← List.map_cons, ih,
          listed_cons_cons]
        simp [Spaced.written, afterBlank]
  match texts with
  | [] => rfl
  | [text] => simp [spacedList, tidy, Spaced.written]
  | text :: next :: texts =>
      rw [tidy, List.map_cons, spacedList_cons_cons, ← List.map_cons, blanks, listed_cons_cons]
      simp [Spaced.written]

/-- A spelled type is a type as it may be written. -/
theorem TypeTree.WellNamed.spaced {type : TypeTree} (named : type.WellNamed) :
    SpacedType type.spelling := by
  have all {types : List TypeTree} (inner : ∀ type ∈ types, SpacedType type.spelling) :
      ∀ item ∈ tidy (types.map TypeTree.spelling), SpacedType item.text := by
    intro item member
    obtain ⟨type, among, same⟩ := List.mem_map.mp (text_of_mem_tidy member)
    exact same ▸ inner type among
  have none : ∀ c ∈ [], isBlank c = true := List.forall_mem_nil _
  have blank : ∀ c ∈ [' '], isBlank c = true := List.all_eq_true.mp rfl
  induction named with
  | name word => exact .name word
  | @generic word arguments named _ inner =>
      have type := SpacedType.generic named none (fun item => blank_of_mem_tidy) (all inner)
      rwa [spacedList_tidy, List.nil_append, ← TypeTree.spellings_eq_map] at type
  | list _ inner =>
      have type := @SpacedType.list ⟨[], _, []⟩ ⟨none, none⟩ inner
      rwa [Spaced.written, List.append_nil, List.nil_append] at type
  | @dictionary key value _ _ keyType valueType =>
      have list := spacedList_tidy ':' [key.spelling, value.spelling]
      rw [TypeTree.spelling, ← list]
      exact .dictionary ⟨none, none⟩ ⟨blank, none⟩ keyType valueType
  | @function arguments result _ _ inner ends =>
      have type := SpacedType.function (fun item => blank_of_mem_tidy) (all inner) blank blank ends
      rwa [spacedList_tidy, ← TypeTree.spellings_eq_map] at type
  | optional _ inner => exact .marked inner (.inl rfl)

end DartBindings.Declaration
