import DartBindings.Proofs.Dart.Mappings
import DartBindings.Proofs.Declaration.SpreadType

/-!
The types whose element types are kept. Each of them has a spelling without blanks that no other
type has, so the table that is searched by spellings knows exactly these types.
-/

set_option autoImplicit false

namespace DartBindings.Dart

open Text Source Declaration

/-- The types whose element types are kept. -/
def keptType : TypeTree → Option String
  | .generic "List" [.name "String"] => some "List<String>"
  | .generic "List" [.name "Int"] => some "List<int>"
  | .generic "Map" [.name "String", .name "Any"] => some "Map<String, dynamic>"
  | .list (.name "String") => some "List<String>"
  | .list (.name "Int") => some "List<int>"
  | .dictionary (.name "String") (.name "Any") => some "Map<String, dynamic>"
  | _ => none

/-! ## Spellings -/

section Spellings

variable {type : TypeTree}

/-- The characters of which each type that is no name has one. -/
def isTypeSign (c : Char) : Bool :=
  c == '<' || c == '[' || c == '(' || c == '?'

theorem isTypeSign_of_isWordChar {c : Char} (word : isWordChar c = true) :
    isTypeSign c = false := by
  cases sign : isTypeSign c with
  | false => rfl
  | true =>
      simp only [isTypeSign, Bool.or_eq_true, beq_iff_eq] at sign
      rcases sign with ((rfl | rfl) | rfl) | rfl <;> exact absurd word (by decide)

theorem name_of_unsigned (unsigned : ∀ c ∈ type.compact, isTypeSign c = false) :
    type = .name (String.ofList type.compact) := by
  cases type with
  | name word => simp [TypeTree.compact_name]
  | generic word arguments => cases unsigned '<' (by simp [TypeTree.compact_generic])
  | list element => cases unsigned '[' (by simp [TypeTree.compact_list])
  | dictionary key value => cases unsigned '[' (by simp [TypeTree.compact_dictionary])
  | function arguments result => cases unsigned '(' (by simp [TypeTree.compact_function])
  | optional type => cases unsigned '?' (by simp [TypeTree.compact_optional])

theorem isWordChar_of_unsigned (named : type.WellNamed)
    (unsigned : ∀ c ∈ type.compact, isTypeSign c = false) :
    ∀ c ∈ type.compact, isWordChar c = true := by
  rw [name_of_unsigned unsigned] at named
  cases named with
  | name word => simpa using word.chars

theorem name_of_spelling {word : String} (plain : IsWord word.toList)
    (spelled : type.compact = word.toList) : type = .name word := by
  have name : type = .name (String.ofList type.compact) := name_of_unsigned fun c inside =>
    isTypeSign_of_isWordChar (plain.chars c (spelled ▸ inside))
  rwa [spelled, String.ofList_toList] at name

theorem names_of_spelling {arguments : List TypeTree} {names : List String}
    (named : ∀ type ∈ arguments, type.WellNamed) (some : names ≠ [])
    (words : ∀ name ∈ names, IsWord name.toList)
    (spelled : [','].intercalate (arguments.map TypeTree.compact) =
      [','].intercalate (names.map String.toList)) :
    arguments = names.map TypeTree.name := by
  have unsigned : ∀ type ∈ arguments, ∀ c ∈ type.compact, isTypeSign c = false := by
    intro type listed c inside
    have member : c ∈ [','].intercalate (arguments.map TypeTree.compact) :=
      mem_intercalate_of_mem (List.mem_map_of_mem listed) inside
    rw [spelled] at member
    rcases mem_intercalate member with ⟨word, among, inName⟩ | comma
    · obtain ⟨name, here, rfl⟩ := List.mem_map.mp among
      exact isTypeSign_of_isWordChar ((words name here).chars c inName)
    · exact List.mem_singleton.mp comma ▸ by decide
  have uncut : ∀ word ∈ arguments.map TypeTree.compact, ',' ∉ word := by
    intro word among comma
    obtain ⟨type, listed, rfl⟩ := List.mem_map.mp among
    have word := isWordChar_of_unsigned (named type listed) (unsigned type listed) ',' comma
    exact absurd word (by decide)
  have uncutNames : ∀ word ∈ names.map String.toList, ',' ∉ word := by
    intro word among comma
    obtain ⟨name, here, rfl⟩ := List.mem_map.mp among
    exact absurd ((words name here).chars ',' comma) (by decide)
  have listed : arguments.map TypeTree.compact ≠ [] := by
    intro none
    obtain ⟨name, others, rfl⟩ := List.exists_cons_of_ne_nil some
    obtain ⟨c, rest, first⟩ := List.exists_cons_of_ne_nil (words name List.mem_cons_self).nonempty
    have inside : c ∈ [','].intercalate ((name :: others).map String.toList) :=
      mem_intercalate_of_mem (List.mem_map_of_mem List.mem_cons_self) (first ▸ List.mem_cons_self)
    rw [← spelled, none] at inside
    cases inside
  have texts : arguments.map TypeTree.compact = names.map String.toList := by
    have split := congrArg (List.splitOn ',') spelled
    rwa [List.splitOn_intercalate ',' uncut listed,
      List.splitOn_intercalate ',' uncutNames (by simpa using some)] at split
  calc arguments
      = arguments.map fun type => .name (String.ofList type.compact) := by
        refine (List.map_id arguments).symm.trans (List.map_congr_left fun type listed => ?_)
        exact name_of_unsigned (unsigned type listed)
    _ = (arguments.map TypeTree.compact).map fun word => .name (String.ofList word) := by
        rw [List.map_map]
        rfl
    _ = names.map TypeTree.name := by
        rw [texts, List.map_map]
        exact List.map_congr_left fun name _ => congrArg TypeTree.name String.ofList_toList

/-- A word does not begin with a bracket. -/
theorem not_bracket_append {word : List Char} (plain : IsWord word) {c : Char}
    (other : isWordChar c = false) (rest more : List Char) : word ++ rest ≠ c :: more := by
  obtain ⟨first, others, rfl⟩ := List.exists_cons_of_ne_nil plain.nonempty
  intro same
  rw [List.cons_append, List.cons.injEq] at same
  exact ne_of_class (plain.chars first List.mem_cons_self) other same.1

theorem cut_unique {c : Char} {first second rest more : List Char} (apart : c ∉ first)
    (apartToo : c ∉ second) (same : first ++ c :: rest = second ++ c :: more) :
    first = second ∧ rest = more := by
  have here {text : List Char} (apart : c ∉ text) (rest : List Char) :
      (text ++ c :: rest).takeWhile (· != c) = text := by
    have other : ∀ d ∈ text, (d != c) = true := fun d inside =>
      bne_iff_ne.mpr (ne_of_mem_of_not_mem inside apart)
    rw [List.takeWhile_append_of_pos other]
    simp
  have start : first = second := by rw [← here apart rest, same, here apartToo]
  subst start
  exact ⟨rfl, (List.cons.inj (List.append_cancel_left same)).2⟩

theorem generic_of_spelling {word : String} {names : List String} (named : type.WellNamed)
    (plain : IsWord word.toList) (some : names ≠ []) (words : ∀ name ∈ names, IsWord name.toList)
    (spelled : type.compact =
      word.toList ++ '<' :: ([','].intercalate (names.map String.toList) ++ ['>'])) :
    type = .generic word (names.map TypeTree.name) := by
  have angle {word : List Char} (plain : IsWord word) : '<' ∉ word := fun inside =>
    absurd (plain.chars '<' inside) (by decide)
  cases named with
  | @name other named =>
      rw [TypeTree.compact_name] at spelled
      exact absurd (spelled ▸ by simp : '<' ∈ other.toList) (angle named)
  | generic named arguments =>
      rw [TypeTree.compact_generic] at spelled
      obtain ⟨same, inner⟩ := cut_unique (angle named) (angle plain) spelled
      rw [String.toList_injective same,
        names_of_spelling arguments some words (List.append_cancel_right inner)]
  | list =>
      rw [TypeTree.compact_list] at spelled
      exact absurd spelled.symm (not_bracket_append plain (by decide) _ _)
  | dictionary =>
      rw [TypeTree.compact_dictionary] at spelled
      exact absurd spelled.symm (not_bracket_append plain (by decide) _ _)
  | function =>
      rw [TypeTree.compact_function] at spelled
      exact absurd spelled.symm (not_bracket_append plain (by decide) _ _)
  | optional =>
      rw [TypeTree.compact_optional, ← List.cons_append, ← List.append_assoc] at spelled
      cases (List.append_inj_right' spelled rfl)

/-- Only lists and dictionaries are spelled in square brackets. -/
theorem bracketed_of_spelling {inner : List Char} (named : type.WellNamed)
    (spelled : type.compact = '[' :: (inner ++ [']'])) :
    (∃ element, type = .list element ∧ element.WellNamed ∧ element.compact = inner) ∨
      ∃ key value, type = .dictionary key value ∧ key.WellNamed ∧
        key.compact ++ ':' :: value.compact = inner := by
  cases named with
  | name named =>
      rw [TypeTree.compact_name, ← List.append_nil (String.toList _)] at spelled
      exact absurd spelled (not_bracket_append named (by decide) _ _)
  | generic named =>
      rw [TypeTree.compact_generic] at spelled
      exact absurd spelled (not_bracket_append named (by decide) _ _)
  | list named =>
      rw [TypeTree.compact_list, List.cons.injEq] at spelled
      exact .inl ⟨_, rfl, named, List.append_cancel_right spelled.2⟩
  | dictionary named =>
      rw [TypeTree.compact_dictionary, List.cons.injEq] at spelled
      exact .inr ⟨_, _, rfl, named, List.append_cancel_right spelled.2⟩
  | function =>
      rw [TypeTree.compact_function] at spelled
      cases (List.cons.inj spelled).1
  | optional =>
      rw [TypeTree.compact_optional, ← List.cons_append] at spelled
      cases (List.append_inj_right' spelled rfl)

theorem list_of_spelling {name : String} (named : type.WellNamed) (plain : IsWord name.toList)
    (spelled : type.compact = '[' :: (name.toList ++ [']'])) : type = .list (.name name) := by
  rcases bracketed_of_spelling named spelled with
    ⟨element, rfl, -, inner⟩ | ⟨key, value, -, -, inner⟩
  · rw [name_of_spelling plain inner]
  · have colon : ':' ∈ name.toList := by
      rw [← inner]
      simp
    exact absurd (plain.chars ':' colon) (by decide)

theorem dictionary_of_spelling {key value : String} (named : type.WellNamed)
    (plainKey : IsWord key.toList) (plainValue : IsWord value.toList)
    (spelled : type.compact = '[' :: (key.toList ++ ':' :: value.toList ++ [']'])) :
    type = .dictionary (.name key) (.name value) := by
  have unsigned : ∀ c ∈ key.toList ++ ':' :: value.toList, isTypeSign c = false := by
    rw [List.forall_mem_append, List.forall_mem_cons]
    exact ⟨fun c inside => isTypeSign_of_isWordChar (plainKey.chars c inside), by decide,
      fun c inside => isTypeSign_of_isWordChar (plainValue.chars c inside)⟩
  rcases bracketed_of_spelling named spelled with
    ⟨element, -, named, inner⟩ | ⟨first, second, rfl, named, entry⟩
  · have word := isWordChar_of_unsigned named (inner ▸ unsigned) ':' (by simp [inner])
    exact absurd word (by decide)
  · have firstUnsigned : ∀ c ∈ first.compact, isTypeSign c = false := fun c inside =>
      unsigned c (entry ▸ List.mem_append_left _ inside)
    have uncut : ':' ∉ first.compact := fun colon =>
      absurd (isWordChar_of_unsigned named firstUnsigned ':' colon) (by decide)
    have uncutKey : ':' ∉ key.toList := fun colon =>
      absurd (plainKey.chars ':' colon) (by decide)
    obtain ⟨sameKey, sameValue⟩ := cut_unique uncut uncutKey entry
    rw [name_of_spelling plainKey sameKey, name_of_spelling plainValue sameValue]

end Spellings

/-- The table of generic types knows exactly the types whose element types are kept. -/
theorem lookup_genericTypes {type : TypeTree} (named : type.WellNamed) :
    genericTypes.lookup (String.ofList type.compact) = keptType type := by
  have word {text : String} (word : (!text.toList.isEmpty && text.toList.all isWordChar) = true) :
      IsWord text.toList := (isWord_iff_all _).mp word
  unfold keptType
  split
  · simp only [TypeTree.compact_generic, List.map, TypeTree.compact_name]
    rfl
  · simp only [TypeTree.compact_generic, List.map, TypeTree.compact_name]
    rfl
  · simp only [TypeTree.compact_generic, List.map, TypeTree.compact_name]
    rfl
  · simp only [TypeTree.compact_list, TypeTree.compact_name]
    rfl
  · simp only [TypeTree.compact_list, TypeTree.compact_name]
    rfl
  · simp only [TypeTree.compact_dictionary, TypeTree.compact_name]
    rfl
  · rename_i strings ints anys stringList intList anyMap
    rw [List.lookup_eq_none_iff]
    intro entry listed
    rw [bne_iff_ne]
    intro same
    have spelled : type.compact = entry.1.toList := by rw [← same, String.toList_ofList]
    simp only [genericTypes, List.mem_cons, List.not_mem_nil, or_false] at listed
    rcases listed with rfl | rfl | rfl | rfl | rfl | rfl
    · exact strings (generic_of_spelling named (word (by decide)) (List.cons_ne_nil "String" [])
        (List.forall_mem_singleton.mpr (word (by decide))) spelled)
    · exact ints (generic_of_spelling named (word (by decide)) (List.cons_ne_nil "Int" [])
        (List.forall_mem_singleton.mpr (word (by decide))) spelled)
    · exact anys (generic_of_spelling named (word (by decide)) (List.cons_ne_nil "String" ["Any"])
        (List.forall_mem_cons.mpr ⟨word (by decide),
          List.forall_mem_singleton.mpr (word (by decide))⟩) spelled)
    · exact stringList (list_of_spelling named (word (by decide)) spelled)
    · exact intList (list_of_spelling named (word (by decide)) spelled)
    · exact anyMap (dictionary_of_spelling named (word (by decide)) (word (by decide)) spelled)

end DartBindings.Dart
