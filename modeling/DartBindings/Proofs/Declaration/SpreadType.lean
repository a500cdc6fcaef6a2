import DartBindings.Proofs.Declaration.SpacedType

/-!
Types with any blanks between their parts. A part is a name, with the angle that follows it, or
a mark. Without its blanks such a text is the parts alone, and the splitter passes over it.
-/

set_option autoImplicit false

namespace DartBindings.Declaration

open Text Source

/-! ## Parts -/

/-- The parts one after the other, with any blanks before, between and behind them. -/
inductive Spread : List (List Char) → List Char → Prop where
  | nil {gap} : (∀ c ∈ gap, isBlank c = true) → Spread [] gap
  | cons {gap part parts text} : (∀ c ∈ gap, isBlank c = true) → Spread parts text →
      Spread (part :: parts) (gap ++ (part ++ text))

section Spread

variable {first last inner rest parts : List (List Char)} {part lead text : List Char}
  {opening closing : Char}

theorem Spread.split (spread : Spread (first ++ last) text) :
    ∃ front back, text = front ++ back ∧ Spread first front ∧ Spread last back := by
  induction first generalizing text with
  | nil => exact ⟨[], text, rfl, .nil nofun, spread⟩
  | cons part first ih =>
      cases spread with
      | @cons gap _ _ text blank spread =>
          obtain ⟨front, back, rfl, before, after⟩ := ih spread
          exact ⟨gap ++ (part ++ front), back, by simp, .cons blank before, after⟩

theorem Spread.append_blanks {gap : List Char} (spread : Spread parts text)
    (blank : ∀ c ∈ gap, isBlank c = true) : Spread parts (text ++ gap) := by
  induction spread with
  | nil blankBefore => exact .nil (List.forall_mem_append.mpr ⟨blankBefore, blank⟩)
  | cons blankBefore _ ih =>
      rw [List.append_assoc, List.append_assoc]
      exact .cons blankBefore ih

theorem Spread.blanks (spread : Spread [] text) : ∀ c ∈ text, isBlank c = true := by
  cases spread with
  | nil blank => exact blank

theorem Spread.single (spread : Spread [part] text) :
    ∃ before after, text = before ++ (part ++ after) ∧ (∀ c ∈ before, isBlank c = true) ∧
      ∀ c ∈ after, isBlank c = true := by
  cases spread with
  | cons blank spread => exact ⟨_, _, rfl, blank, spread.blanks⟩

/-- A group whose opening bracket belongs to the first part. -/
theorem Spread.group
    (spread : Spread ((lead ++ [opening]) :: (inner ++ [closing] :: rest)) text) :
    ∃ before body after,
      text = before ++ ((lead ++ opening :: (body ++ [closing])) ++ after) ∧
      (∀ c ∈ before, isBlank c = true) ∧ Spread inner body ∧ Spread rest after := by
  cases spread with
  | @cons before _ _ _ blank spread =>
      obtain ⟨front, back, rfl, body, ends⟩ := spread.split
      cases ends with
      | @cons gap _ _ after blankAfter ends =>
          exact ⟨before, front ++ gap, after, by simp, blank, body.append_blanks blankAfter, ends⟩

/-- A group whose opening bracket is a part of its own. -/
theorem Spread.bracket (spread : Spread ([opening] :: (inner ++ [closing] :: rest)) text) :
    ∃ before body after, text = before ++ ((opening :: (body ++ [closing])) ++ after) ∧
      (∀ c ∈ before, isBlank c = true) ∧ Spread inner body ∧ Spread rest after :=
  @Spread.group inner rest [] text opening closing spread

theorem Spread.squeeze_eq (spread : Spread parts text)
    (solid : ∀ c ∈ parts.flatten, isBlank c = false) : squeeze text = parts.flatten := by
  induction spread with
  | nil blank => exact squeeze_of_blank blank
  | cons blank _ ih =>
      rw [List.flatten_cons] at solid ⊢
      obtain ⟨own, others⟩ := List.forall_mem_append.mp solid
      rw [squeeze_append, squeeze_append, squeeze_of_blank blank, squeeze_of_solid own, ih others,
        List.nil_append]

end Spread

/-! ## Parts of types -/

mutual

/-- What blanks may stand between. The angle of type arguments belongs to the name. -/
def TypeTree.parts : TypeTree → List (List Char)
  | .name word => [word.toList]
  | .generic word arguments =>
    (word.toList ++ ['<']) :: ([[',']].intercalate (partLists arguments) ++ [['>']])
  | .list element => ['['] :: (element.parts ++ [[']']])
  | .dictionary key value => ['['] :: ((key.parts ++ [':'] :: value.parts) ++ [[']']])
  | .function arguments result =>
    ['('] :: ([[',']].intercalate (partLists arguments) ++ [')'] :: "->".toList :: result.parts)
  | .optional type => type.parts ++ [['?']]

def TypeTree.partLists : List TypeTree → List (List (List Char))
  | [] => []
  | type :: types => type.parts :: partLists types

end

theorem TypeTree.partLists_eq_map (types : List TypeTree) :
    TypeTree.partLists types = types.map TypeTree.parts := by
  induction types with
  | nil => rfl
  | cons type types ih => rw [TypeTree.partLists, ih, List.map_cons]

theorem flatten_intercalate {α : Type} (separator : List (List α)) (lists : List (List (List α))) :
    (separator.intercalate lists).flatten =
      separator.flatten.intercalate (lists.map List.flatten) := by
  induction lists with
  | nil => rfl
  | cons first lists ih =>
      cases lists with
      | nil => simp
      | cons next lists =>
          rw [List.intercalate_cons_cons, List.flatten_append, List.flatten_append, ih]
          simp [List.intercalate_cons_cons]

/-- A type without any blanks. -/
def TypeTree.compact (type : TypeTree) : List Char :=
  type.parts.flatten

section Compact

theorem TypeTree.compact_name (word : String) : (TypeTree.name word).compact = word.toList := by
  simp [compact, parts]

theorem TypeTree.compact_generic (word : String) (arguments : List TypeTree) :
    (TypeTree.generic word arguments).compact =
      word.toList ++ '<' :: ([','].intercalate (arguments.map compact) ++ ['>']) := by
  have list : arguments.map compact = (arguments.map parts).map List.flatten := by
    rw [List.map_map]
    rfl
  simp [compact, parts, partLists_eq_map, flatten_intercalate, list]

theorem TypeTree.compact_list (element : TypeTree) :
    (TypeTree.list element).compact = '[' :: (element.compact ++ [']']) := by
  simp [compact, parts]

theorem TypeTree.compact_dictionary (key value : TypeTree) :
    (TypeTree.dictionary key value).compact =
      '[' :: (key.compact ++ ':' :: value.compact ++ [']']) := by
  simp [compact, parts]

theorem TypeTree.compact_function (arguments : List TypeTree) (result : TypeTree) :
    (TypeTree.function arguments result).compact =
      '(' :: ([','].intercalate (arguments.map compact) ++
        ')' :: '-' :: '>' :: result.compact) := by
  have list : arguments.map compact = (arguments.map parts).map List.flatten := by
    rw [List.map_map]
    rfl
  simp [compact, parts, partLists_eq_map, flatten_intercalate, list]

theorem TypeTree.compact_optional (type : TypeTree) :
    (TypeTree.optional type).compact = type.compact ++ ['?'] := by
  simp [compact, parts]

end Compact

theorem TypeTree.WellNamed.compact_ne_nil {type : TypeTree} (named : type.WellNamed) :
    type.compact ≠ [] := by
  cases named with
  | name named => simpa [TypeTree.compact_name] using named.nonempty
  | generic => simp [TypeTree.compact_generic]
  | list => simp [TypeTree.compact_list]
  | dictionary => simp [TypeTree.compact_dictionary]
  | function => simp [TypeTree.compact_function]
  | optional => simp [TypeTree.compact_optional]

theorem TypeTree.WellNamed.compact_solid {type : TypeTree} (named : type.WellNamed) :
    ∀ c ∈ type.compact, isBlank c = false := by
  have word {word : List Char} (named : IsWord word) : ∀ c ∈ word, isBlank c = false :=
    fun c member => isBlank_of_isWordChar (named.chars c member)
  have list {arguments : List TypeTree}
      (solid : ∀ type ∈ arguments, ∀ c ∈ type.compact, isBlank c = false) :
      ∀ c ∈ [','].intercalate (arguments.map compact), isBlank c = false := by
    intro c member
    rcases mem_intercalate member with ⟨text, among, inside⟩ | comma
    · obtain ⟨type, listed, rfl⟩ := List.mem_map.mp among
      exact solid type listed c inside
    · exact List.mem_singleton.mp comma ▸ by decide
  induction named with
  | name named =>
      rw [compact_name]
      exact word named
  | generic named _ arguments =>
      simp only [compact_generic, List.forall_mem_append, List.forall_mem_cons]
      exact ⟨word named, by decide, list arguments, by decide, nofun⟩
  | list _ element =>
      simp only [compact_list, List.forall_mem_append, List.forall_mem_cons]
      exact ⟨by decide, element, by decide, nofun⟩
  | dictionary _ _ key value =>
      simp only [compact_dictionary, List.forall_mem_append, List.forall_mem_cons]
      exact ⟨by decide, ⟨key, by decide, value⟩, by decide, nofun⟩
  | function _ _ arguments result =>
      simp only [compact_function, List.forall_mem_append, List.forall_mem_cons]
      exact ⟨by decide, list arguments, by decide, by decide, by decide, result⟩
  | optional _ type =>
      simp only [compact_optional, List.forall_mem_append, List.forall_mem_cons]
      exact ⟨type, by decide, nofun⟩

/-! ## Texts that are passed over -/

section Through

variable {separator : Char}

/-- Inside brackets the splitter passes over lists. -/
theorem through_spreadList (proper : isSeparator separator = true) {depths : Depths}
    (deep : depths ≠ .level) {types : List TypeTree}
    (inner : ∀ type ∈ types, ∀ text, Spread type.parts text → Through separator depths text)
    {text : List Char} (spread : Spread ([[',']].intercalate (TypeTree.partLists types)) text) :
    Through separator depths text := by
  induction types generalizing text with
  | nil => exact through_blanks spread.blanks proper
  | cons type types ih =>
      obtain ⟨own, others⟩ := List.forall_mem_cons.mp inner
      cases types with
      | nil => exact own text (by simpa [TypeTree.partLists] using spread)
      | cons next types =>
          have parts : Spread (type.parts ++ [','] ::
              [[',']].intercalate (TypeTree.partLists (next :: types))) text := by
            simpa [TypeTree.partLists, List.intercalate_cons_cons] using spread
          obtain ⟨front, back, rfl, first, rest⟩ := parts.split
          cases rest with
          | cons blank rest =>
              have comma : Through separator depths [','] :=
                through_char (by decide) (fun _ => deep) rfl
              exact (own front first).append
                ((through_blanks blank proper).append (comma.append (ih others rest)))

theorem through_mark (proper : isSeparator separator = true) {depths : Depths} {mark : Char}
    (type : isTypeChar mark = true) : Through separator depths [mark] := by
  have nested : Nested false [mark] := .char type
  exact nested.cutPieces proper nofun

theorem TypeTree.WellNamed.through {type : TypeTree} (named : type.WellNamed)
    (proper : isSeparator separator = true) (depths : Depths) {text : List Char}
    (spread : Spread type.parts text) : Through separator depths text := by
  induction named generalizing depths text with
  | name named =>
      obtain ⟨before, after, rfl, blankBefore, blankAfter⟩ := spread.single
      exact (through_blanks blankBefore proper).append
        ((through_word named.chars proper).append (through_blanks blankAfter proper))
  | generic named _ inner =>
      obtain ⟨before, body, after, rfl, blank, arguments, ends⟩ := spread.group
      have group : Through separator depths ('<' :: (body ++ ['>'])) :=
        .group .angle proper fun depths deep => through_spreadList proper deep
          (fun type member _ spread => inner type member depths spread) arguments
      exact (through_blanks blank proper).append
        (((through_word named.chars proper).append group).append
          (through_blanks ends.blanks proper))
  | list _ inner =>
      obtain ⟨before, body, after, rfl, blank, element, ends⟩ := spread.bracket
      have group : Through separator depths ('[' :: (body ++ [']'])) :=
        .group .square proper fun depths _ => inner depths element
      exact (through_blanks blank proper).append
        (group.append (through_blanks ends.blanks proper))
  | dictionary _ _ key value =>
      obtain ⟨before, body, after, rfl, blank, entry, ends⟩ := spread.bracket
      have group : Through separator depths ('[' :: (body ++ [']'])) := by
        refine .group .square proper fun depths deep => ?_
        obtain ⟨front, back, rfl, first, rest⟩ := entry.split
        cases rest with
        | cons blankColon second =>
            have colon : Through separator depths [':'] :=
              through_char (by decide) (fun _ => deep) rfl
            exact (key depths first).append ((through_blanks blankColon proper).append
              (colon.append (value depths second)))
      exact (through_blanks blank proper).append
        (group.append (through_blanks ends.blanks proper))
  | function _ _ inner result =>
      obtain ⟨before, body, after, rfl, blank, arguments, ends⟩ := spread.bracket
      have group : Through separator depths ('(' :: (body ++ [')'])) :=
        .group .round proper fun depths deep => through_spreadList proper deep
          (fun type member _ spread => inner type member depths spread) arguments
      cases ends with
      | cons blankArrow ends =>
          have nested : Nested false "->".toList := .arrow
          have arrow : Through separator depths "->".toList := nested.cutPieces proper nofun
          exact (through_blanks blank proper).append (group.append
            ((through_blanks blankArrow proper).append (arrow.append (result depths ends))))
  | optional _ inner =>
      obtain ⟨front, back, rfl, type, ends⟩ := spread.split
      obtain ⟨before, after, rfl, blankBefore, blankAfter⟩ := ends.single
      exact (inner depths type).append ((through_blanks blankBefore proper).append
        ((through_mark proper (by decide)).append (through_blanks blankAfter proper)))

end Through

end DartBindings.Declaration
