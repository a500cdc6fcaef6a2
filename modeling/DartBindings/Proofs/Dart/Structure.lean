import DartBindings.Proofs.Dart.KeptTypes

/-!
The Dart type of a native type without registered mappings. The textual tests (the tables, the
heads and the search for a colon at the top level) come to the outermost constructor of the type,
whatever blanks stand between its parts.
-/

set_option autoImplicit false

namespace DartBindings.Dart

open Text Source Declaration

/-! ## Dart types by structure -/

def mapNames : List String := ["Map", "MutableMap", "HashMap", "Dictionary"]

def listNames : List String := ["List", "MutableList", "ArrayList", "Array", "Set"]

/-- The Dart type by the outermost constructor alone. -/
def outerType : TypeTree → String
  | .name word => (primitiveTypes.lookup word).getD dynamicType
  | .generic word _ =>
    if word ∈ mapNames then mapType else if word ∈ listNames then listType else dynamicType
  | .list _ => listType
  | .dictionary _ _ => mapType
  | .function _ _ | .optional _ => dynamicType

def structuralType (type : TypeTree) : String :=
  (keptType type).getD (outerType type)

/-! ## Tests of bare spellings -/

section Tests

variable {bare : List Char} {type : TypeTree}

theorem lookup_of_mem {table : List (String × String)} {c : Char} (inside : c ∈ bare)
    (absent : ∀ entry ∈ table, c ∉ entry.1.toList) : table.lookup (String.ofList bare) = none := by
  rw [List.lookup_eq_none_iff]
  intro entry listed
  rw [bne_iff_ne]
  intro same
  exact absent entry listed (by rwa [← same, String.toList_ofList])

theorem beginsWithAny_iff {heads : List String} :
    beginsWithAny heads bare = true ↔ ∃ head ∈ heads, ∃ rest, bare = head.toList ++ rest := by
  simp only [beginsWithAny, List.any_eq_true, List.isPrefixOf_iff_prefix]
  exact exists_congr fun head => and_congr_right fun _ => exists_congr fun rest => eq_comm

/-- A head that ends in an angle is the name before the first angle. -/
theorem beginsWithAny_generic (names : List String) (apart : ∀ name ∈ names, '<' ∉ name.toList)
    {word : String} (named : '<' ∉ word.toList) (rest : List Char) :
    beginsWithAny (names.map fun name => name ++ "<") (word.toList ++ '<' :: rest) = true ↔
      word ∈ names := by
  rw [beginsWithAny_iff]
  constructor
  · rintro ⟨head, listed, more, same⟩
    obtain ⟨name, known, rfl⟩ := List.mem_map.mp listed
    rw [String.toList_append, List.append_assoc] at same
    obtain ⟨first, -⟩ := cut_unique named (apart name known) same
    rwa [String.toList_injective first]
  · intro known
    exact ⟨word ++ "<", List.mem_map_of_mem known, rest, by simp⟩

theorem builtinType_of_unlisted (named : type.WellNamed)
    (unlisted : primitiveTypes.lookup (String.ofList bare) = none)
    (squeezed : squeeze bare = type.compact) :
    builtinType bare = (keptType type).getD (if isMapType bare then mapType
      else if beginsWithAny listHeads bare then listType else dynamicType) := by
  rw [builtinType, unlisted, squeezed]
  dsimp only
  rw [lookup_genericTypes named]
  cases keptType type <;> rfl

theorem isBracketedMap_of_other {c : Char} {rest : List Char} (other : c ≠ '[') :
    isBracketedMap (c :: rest) = false := by
  simp [isBracketedMap, other]

theorem isBracketedMap_of_square (body : List Char) :
    isBracketedMap ('[' :: (body ++ [']'])) =
      decide (1 < (splitTopLevel [':'] body).length) := by
  have last : ('[' :: (body ++ [']'])).getLast? = some ']' := by
    rw [← List.cons_append, List.getLast?_append]
    rfl
  rw [isBracketedMap, last]
  simp

/-- The heads of lists and maps begin with letters, save the bracket. -/
theorem mem_of_beginsWithAny {heads : List String} {starts : Char → Bool} {c : Char}
    {rest : List Char} (first : ∀ head ∈ heads, head.toList.head?.any starts = true)
    (begins : beginsWithAny heads (c :: rest) = true) : starts c = true := by
  obtain ⟨head, listed, more, same⟩ := beginsWithAny_iff.mp begins
  obtain ⟨d, found, begun⟩ := (Option.any_eq_true _ _).mp (first head listed)
  obtain ⟨others, spelled⟩ := List.head?_eq_some_iff.mp found
  rw [spelled, List.cons_append, List.cons.injEq] at same
  rwa [same.1]

theorem mapHeads_first : ∀ head ∈ mapHeads, head.toList.head?.any isWordChar = true := by
  decide

theorem listHeads_first :
    ∀ head ∈ listHeads, head.toList.head?.any (fun c => isWordChar c || c == '[') = true := by
  decide

/-- The texts that begin with no head at all. -/
theorem builtinType_of_other {c : Char} {rest : List Char}
    (unlisted : primitiveTypes.lookup (String.ofList (c :: rest)) = none)
    (unkept : genericTypes.lookup (String.ofList (squeeze (c :: rest))) = none)
    (word : isWordChar c = false) (square : c ≠ '[') : builtinType (c :: rest) = dynamicType := by
  have noMap : beginsWithAny mapHeads (c :: rest) = false := Bool.eq_false_iff.mpr fun begins =>
    ne_of_class (mem_of_beginsWithAny mapHeads_first begins) word rfl
  have noList : beginsWithAny listHeads (c :: rest) = false := Bool.eq_false_iff.mpr fun begins =>
    by simpa [word, square] using mem_of_beginsWithAny listHeads_first begins
  rw [builtinType, unlisted]
  dsimp only
  rw [unkept, isMapType, noMap, noList, isBracketedMap_of_other square]
  rfl

end Tests

/-! ## Outermost constructors -/

section Constructors

theorem builtinType_name {word : String} (named : IsWord word.toList) :
    builtinType word.toList = structuralType (.name word) := by
  have none (heads : List String)
      (signed : ∀ head ∈ heads, head.toList.all isWordChar = false) :
      beginsWithAny heads word.toList = false := by
    rw [Bool.eq_false_iff, Ne, beginsWithAny_iff]
    rintro ⟨head, listed, rest, same⟩
    have chars : head.toList.all isWordChar = true := List.all_eq_true.mpr fun c inside =>
      named.chars c (same ▸ List.mem_append_left rest inside)
    rw [signed head listed] at chars
    cases chars
  have bracket : isBracketedMap word.toList = false := by
    obtain ⟨c, rest, spelled⟩ := List.exists_cons_of_ne_nil named.nonempty
    rw [spelled]
    exact isBracketedMap_of_other
      (ne_of_class (named.chars c (spelled ▸ List.mem_cons_self)) (by decide))
  have squeezed : squeeze word.toList = (TypeTree.name word).compact := by
    rw [TypeTree.compact_name]
    exact squeeze_of_solid fun c inside => isBlank_of_isWordChar (named.chars c inside)
  have spelled : String.ofList word.toList = word := String.ofList_toList
  cases found : primitiveTypes.lookup word with
  | some type => simp [builtinType, spelled, found, structuralType, keptType, outerType]
  | none =>
      rw [builtinType_of_unlisted (.name named) (spelled.symm ▸ found) squeezed, isMapType,
        none mapHeads (by decide), none listHeads (by decide), bracket]
      simp [structuralType, keptType, outerType, found]

theorem builtinType_generic {word : String} {arguments : List TypeTree} {body : List Char}
    (named : (TypeTree.generic word arguments).WellNamed)
    (squeezed : squeeze (word.toList ++ '<' :: (body ++ ['>'])) =
      (TypeTree.generic word arguments).compact) :
    builtinType (word.toList ++ '<' :: (body ++ ['>'])) =
      structuralType (.generic word arguments) := by
  cases id named with
  | generic plain _ =>
      have angle : '<' ∉ word.toList := fun inside =>
        absurd (plain.chars '<' inside) (by decide)
      have unlisted : primitiveTypes.lookup
          (String.ofList (word.toList ++ '<' :: (body ++ ['>']))) = none :=
        lookup_of_mem (c := '<') (by simp) (by decide)
      have bracket : isBracketedMap (word.toList ++ '<' :: (body ++ ['>'])) = false := by
        obtain ⟨c, rest, spelled⟩ := List.exists_cons_of_ne_nil plain.nonempty
        rw [spelled, List.cons_append]
        exact isBracketedMap_of_other
          (ne_of_class (plain.chars c (spelled ▸ List.mem_cons_self)) (by decide))
      have map : beginsWithAny mapHeads (word.toList ++ '<' :: (body ++ ['>'])) =
          decide (word ∈ mapNames) := by
        rw [Bool.eq_iff_iff, decide_eq_true_iff]
        exact beginsWithAny_generic mapNames (by decide) angle _
      have list : beginsWithAny listHeads (word.toList ++ '<' :: (body ++ ['>'])) =
          decide (word ∈ listNames) := by
        have square : ¬ "[".toList.isPrefixOf (word.toList ++ '<' :: (body ++ ['>'])) = true := by
          rw [List.isPrefixOf_iff_prefix]
          rintro ⟨rest, same⟩
          exact not_bracket_append plain (by decide) _ rest same.symm
        have heads : listHeads = (listNames.map fun name => name ++ "<") ++ ["["] := rfl
        rw [heads, beginsWithAny, List.any_append, List.any_cons, Bool.eq_false_iff.mpr square,
          List.any_nil, Bool.or_false, Bool.or_false, Bool.eq_iff_iff, decide_eq_true_iff]
        exact beginsWithAny_generic listNames (by decide) angle _
      rw [builtinType_of_unlisted named unlisted squeezed, isMapType, bracket, map, list]
      simp [structuralType, outerType]

theorem splitTopLevel_list {element : TypeTree} {body : List Char} (named : element.WellNamed)
    (spread : Spread element.parts body) : (splitTopLevel [':'] body).length ≤ 1 := by
  have colon : isSeparator ':' = true := rfl
  have whole := named.through colon .level spread []
  have start : SplitState.start = .within .level := rfl
  rw [List.append_nil] at whole
  rw [splitTopLevel, start, whole]
  simpa [cutPieces, extendFirst] using List.length_filter_le _ [strip body]

theorem strip_ne_nil {type : TypeTree} {text : List Char} (named : type.WellNamed)
    (spread : Spread type.parts text) : strip text ≠ [] := by
  intro none
  apply named.compact_ne_nil
  rw [TypeTree.compact, ← spread.squeeze_eq named.compact_solid, ← squeeze_strip, none]
  rfl

theorem splitTopLevel_dictionary {key value : TypeTree} {body : List Char}
    (namedKey : key.WellNamed) (namedValue : value.WellNamed)
    (spread : Spread (key.parts ++ [':'] :: value.parts) body) :
    (splitTopLevel [':'] body).length = 2 := by
  obtain ⟨front, back, rfl, first, rest⟩ := spread.split
  cases rest with
  | @cons gap _ _ back blank second =>
      have start : SplitState.start = .within .level := rfl
      have colon : isSeparator ':' = true := rfl
      have before := first.append_blanks blank
      have whole := namedKey.through colon .level before (':' :: back)
      have cut : cutPieces [':'] (.within .level) (':' :: back) =
          [] :: cutPieces [':'] (.within .level) back := cutPieces_separator (by decide) rfl rfl
      have last := namedValue.through colon .level second []
      rw [List.append_nil] at last
      rw [splitTopLevel, start, ← List.append_assoc, List.singleton_append, whole, cut, last]
      have key := strip_ne_nil namedKey before
      have value := strip_ne_nil namedValue second
      simp [cutPieces, extendFirst, key, value]

theorem builtinType_list {element : TypeTree} {body : List Char} (named : element.WellNamed)
    (spread : Spread element.parts body)
    (squeezed : squeeze ('[' :: (body ++ [']'])) = (TypeTree.list element).compact) :
    builtinType ('[' :: (body ++ [']'])) = structuralType (.list element) := by
  have unlisted : primitiveTypes.lookup (String.ofList ('[' :: (body ++ [']']))) = none :=
    lookup_of_mem (c := '[') List.mem_cons_self (by decide)
  have noHead : beginsWithAny mapHeads ('[' :: (body ++ [']'])) = false :=
    Bool.eq_false_iff.mpr fun begins =>
      absurd (mem_of_beginsWithAny mapHeads_first begins) (by decide)
  have head : beginsWithAny listHeads ('[' :: (body ++ [']'])) = true :=
    beginsWithAny_iff.mpr ⟨"[", by decide, body ++ [']'], rfl⟩
  have single := splitTopLevel_list named spread
  rw [builtinType_of_unlisted named.list unlisted squeezed, isMapType, isBracketedMap_of_square,
    noHead, head, decide_eq_false (Nat.not_lt.mpr single)]
  rfl

theorem builtinType_dictionary {key value : TypeTree} {body : List Char}
    (namedKey : key.WellNamed) (namedValue : value.WellNamed)
    (spread : Spread (key.parts ++ [':'] :: value.parts) body)
    (squeezed : squeeze ('[' :: (body ++ [']'])) = (TypeTree.dictionary key value).compact) :
    builtinType ('[' :: (body ++ [']'])) = structuralType (.dictionary key value) := by
  have unlisted : primitiveTypes.lookup (String.ofList ('[' :: (body ++ [']']))) = none :=
    lookup_of_mem (c := '[') List.mem_cons_self (by decide)
  have double := splitTopLevel_dictionary namedKey namedValue spread
  rw [builtinType_of_unlisted (namedKey.dictionary namedValue) unlisted squeezed, isMapType,
    isBracketedMap_of_square, double, decide_eq_true (Nat.lt_succ_self 1), Bool.or_true]
  rfl

/-- A function type is known by its arrow: no table has one, and no head begins with the
parenthesis in front of it. -/
theorem builtinType_function {bare rest : List Char} (squeezed : squeeze bare = '(' :: rest)
    (arrow : '-' ∈ rest) : builtinType bare = dynamicType := by
  have dash : '-' ∈ squeeze bare := squeezed ▸ List.mem_cons_of_mem _ arrow
  cases bare with
  | nil => cases dash
  | cons c others =>
      have first : isBlank c = true ∨ c = '(' := by
        cases blank : isBlank c with
        | true => exact .inl rfl
        | false =>
            have kept : squeeze (c :: others) = c :: squeeze others := by simp [squeeze, blank]
            rw [kept, List.cons.injEq] at squeezed
            exact .inr squeezed.1
      have word : isWordChar c = false := by
        rcases first with blank | rfl
        · exact isWordChar_of_isBlank blank
        · decide
      have square : c ≠ '[' := by
        rcases first with blank | rfl
        · exact ne_of_class blank (by decide)
        · decide
      exact builtinType_of_other
        (lookup_of_mem (List.mem_of_mem_filter dash) (by decide))
        (lookup_of_mem dash (by decide)) word square

end Constructors

/-! ## Types with marks and blanks -/

section Marks

variable {type : TypeTree} {mark : Option Char} {before bare after text : List Char}

/-- The mark of an optional type, if there is one, is a part of its own. -/
def markParts (mark : Option Char) : List (List Char) :=
  mark.toList.map fun c => [c]

theorem solid_markParts (optional : ∀ c ∈ mark, isOptionalMark c = true) :
    ∀ c ∈ (markParts mark).flatten, isBlank c = false := by
  intro c member
  have inside : c ∈ mark := by simpa [markParts] using member
  exact isBlank_of_isOptionalMark (optional c inside)

theorem isOptionalMark_of_isWordChar {c : Char} (word : isWordChar c = true) :
    isOptionalMark c = false := by
  cases marks : isOptionalMark c with
  | false => rfl
  | true =>
      simp only [isOptionalMark, Bool.or_eq_true, beq_iff_eq] at marks
      rcases marks with rfl | rfl <;> exact absurd word (by decide)

theorem bareType_between (blank : ∀ c ∈ before, isBlank c = true) (solid : IsSolid bare)
    (unmarked : ∀ c ∈ bare.getLast?, isOptionalMark c = false)
    (optional : ∀ c ∈ mark, isOptionalMark c = true) (ends : Spread (markParts mark) after) :
    bareType (before ++ (bare ++ after)) = bare := by
  cases mark with
  | none =>
      have stripped := strip_between blank solid ends.blanks
      rw [bareType_of_unmarked (by rwa [stripped]), stripped]
  | some c =>
      have single : Spread [[c]] after := ends
      obtain ⟨gap, rest, rfl, blankBefore, blankAfter⟩ := single.single
      have marks : isOptionalMark c = true := optional c rfl
      have whole : IsSolid (bare ++ (gap ++ [c])) :=
        solid.append gap (isSolid_singleton (isBlank_of_isOptionalMark marks))
      have stripped := strip_between blank whole blankAfter
      have marked : strip (before ++ (bare ++ (gap ++ ([c] ++ rest)))) = (bare ++ gap) ++ [c] := by
        simpa only [List.append_assoc] using stripped
      rw [bareType_of_marked marked marks]
      exact @strip_between [] _ _ nofun solid blankBefore

theorem bareType_group {lead body : List Char} {opening closing : Char}
    (blank : ∀ c ∈ before, isBlank c = true) (starts : ∀ c ∈ lead, isBlank c = false)
    (opens : isBlank opening = false) (closes : isBlank closing = false)
    (unmarked : isOptionalMark closing = false) (optional : ∀ c ∈ mark, isOptionalMark c = true)
    (ends : Spread (markParts mark) after) :
    bareType (before ++ ((lead ++ opening :: (body ++ [closing])) ++ after)) =
      lead ++ opening :: (body ++ [closing]) := by
  have parts : lead ++ opening :: (body ++ [closing]) =
      (lead ++ [opening]) ++ (body ++ [closing]) := by simp
  have first : IsSolid (lead ++ [opening]) :=
    isSolid_of_forall (List.concat_ne_nil opening lead)
      (List.forall_mem_append.mpr ⟨starts, List.forall_mem_singleton.mpr opens⟩)
  have solid := first.append body (isSolid_singleton closes)
  have last : ∀ c ∈ ((lead ++ [opening]) ++ (body ++ [closing])).getLast?,
      isOptionalMark c = false := by
    rw [← List.append_assoc, List.getLast?_concat]
    simpa using unmarked
  rw [parts]
  exact bareType_between blank solid last optional ends

theorem squeeze_spread (named : type.WellNamed) (optional : ∀ c ∈ mark, isOptionalMark c = true)
    (spread : Spread (type.parts ++ markParts mark) text) :
    squeeze text = type.compact ++ (markParts mark).flatten := by
  rw [TypeTree.compact, ← List.flatten_append]
  refine spread.squeeze_eq ?_
  rw [List.flatten_append]
  exact List.forall_mem_append.mpr ⟨named.compact_solid, solid_markParts optional⟩

theorem squeeze_between (named : type.WellNamed) (blank : ∀ c ∈ before, isBlank c = true)
    (optional : ∀ c ∈ mark, isOptionalMark c = true) (ends : Spread (markParts mark) after)
    (spread : Spread (type.parts ++ markParts mark) (before ++ (bare ++ after))) :
    squeeze bare = type.compact := by
  have whole := squeeze_spread named optional spread
  rw [squeeze_append, squeeze_append, squeeze_of_blank blank, List.nil_append,
    ends.squeeze_eq (solid_markParts optional)] at whole
  exact List.append_cancel_right whole

/-- A function type keeps its parenthesis and its arrow when a mark is taken off. -/
theorem squeeze_bareType_function {inner rest : List Char} (some : rest ≠ [])
    (squeezed : squeeze text = '(' :: (inner ++ ')' :: '-' :: '>' :: rest)) :
    ∃ more, squeeze (bareType text) = '(' :: more ∧ '-' ∈ more := by
  rcases squeeze_bareType text with same | ⟨mark, marked⟩
  · exact ⟨_, same ▸ squeezed, by simp⟩
  · have split := List.dropLast_concat_getLast some
    have front : '(' :: (inner ++ ')' :: '-' :: '>' :: rest.dropLast) ++ [rest.getLast some] =
        squeeze (bareType text) ++ [mark] := by
      rw [← marked, squeezed]
      simpa using split
    exact ⟨_, (List.append_inj_left' front rfl).symm, by simp⟩

/-- Without registered mappings the Dart type follows the structure of the type. -/
theorem TypeMapping.dartType_spread (named : type.WellNamed)
    (plain : ∀ inner, type ≠ .optional inner) (optional : ∀ c ∈ mark, isOptionalMark c = true)
    (spread : Spread (type.parts ++ markParts mark) text) :
    TypeMapping.empty.dartType (String.ofList text) = structuralType type := by
  have builtin : TypeMapping.empty.dartType (String.ofList text) = builtinType (bareType text) := by
    rw [dartType_eq, String.toList_ofList]
    rfl
  rw [builtin]
  cases id named with
  | @name word plainWord =>
      cases spread with
      | cons blank ends =>
          have last : ∀ c ∈ word.toList.getLast?, isOptionalMark c = false := fun c last =>
            isOptionalMark_of_isWordChar (plainWord.chars c (List.mem_of_getLast? last))
          rw [bareType_between blank (isSolid_word plainWord) last optional ends]
          exact builtinType_name plainWord
  | @generic word arguments plainWord _ =>
      have group : Spread ((word.toList ++ ['<']) ::
          ([[',']].intercalate (TypeTree.partLists arguments) ++
            ['>'] :: markParts mark)) text := by
        simpa [TypeTree.parts] using spread
      obtain ⟨before, body, after, rfl, blank, -, ends⟩ := group.group
      have squeezed := squeeze_between named blank optional ends spread
      have solid : ∀ c ∈ word.toList, isBlank c = false := fun c inside =>
        isBlank_of_isWordChar (plainWord.chars c inside)
      rw [bareType_group blank solid (by decide) (by decide) (by decide) optional ends]
      exact builtinType_generic named squeezed
  | @list element namedElement =>
      have group : Spread (([] ++ ['[']) :: (element.parts ++ [']'] :: markParts mark)) text := by
        simpa [TypeTree.parts] using spread
      obtain ⟨before, body, after, rfl, blank, inner, ends⟩ := group.group
      have squeezed := squeeze_between named blank optional ends spread
      rw [bareType_group blank (List.forall_mem_nil _) (by decide) (by decide) (by decide)
        optional ends]
      exact builtinType_list namedElement inner squeezed
  | @dictionary key value namedKey namedValue =>
      have group : Spread (([] ++ ['[']) ::
          ((key.parts ++ [':'] :: value.parts) ++ [']'] :: markParts mark)) text := by
        simpa [TypeTree.parts] using spread
      obtain ⟨before, body, after, rfl, blank, inner, ends⟩ := group.group
      have squeezed := squeeze_between named blank optional ends spread
      rw [bareType_group blank (List.forall_mem_nil _) (by decide) (by decide) (by decide)
        optional ends]
      exact builtinType_dictionary namedKey namedValue inner squeezed
  | @function arguments result _ namedResult =>
      -- no bracket closes the whole type, so the mark may be taken off its result
      have squeezed := squeeze_spread named optional spread
      rw [TypeTree.compact_function] at squeezed
      have some : result.compact ++ (markParts mark).flatten ≠ [] :=
        List.append_ne_nil_of_left_ne_nil namedResult.compact_ne_nil _
      obtain ⟨rest, bare, arrow⟩ := squeeze_bareType_function some (by simpa using squeezed)
      exact builtinType_function bare arrow
  | @optional inner => exact absurd rfl (plain inner)

theorem dartType_spread_list :
    let type := TypeTree.list
      (.dictionary (.name "K") (.function [.name "A", .name "B"] (.optional (.name "C"))))
    type.WellNamed ∧ (∀ inner, type ≠ .optional inner) ∧
      Spread (type.parts ++ markParts (some '!')) " [ [K : (A,B) -> C?] ]!".toList ∧
      TypeMapping.empty.dartType " [ [K : (A,B) -> C?] ]!" = "List<dynamic>" := by
  intro type
  have word {text : String} (chars : (!text.toList.isEmpty && text.toList.all isWordChar) = true) :
      (TypeTree.name text).WellNamed := .name ((isWord_iff_all _).mp chars)
  have arguments : ∀ type ∈ [TypeTree.name "A", .name "B"], type.WellNamed :=
    List.forall_mem_cons.mpr ⟨word (by decide), List.forall_mem_singleton.mpr (word (by decide))⟩
  have named : type.WellNamed :=
    .list (.dictionary (word (by decide)) (.function arguments (.optional (word (by decide)))))
  have plain : ∀ inner, type ≠ .optional inner := nofun
  have none : ∀ c ∈ [], isBlank c = true := List.forall_mem_nil _
  have blank : ∀ c ∈ [' '], isBlank c = true := List.forall_mem_singleton.mpr (by decide)
  have spread : Spread (type.parts ++ markParts (some '!')) " [ [K : (A,B) -> C?] ]!".toList := by
    have parts : type.parts ++ markParts (some '!') = [['['], ['['], ['K'], [':'], ['('], ['A'],
        [','], ['B'], [')'], ['-', '>'], ['C'], ['?'], [']'], [']'], ['!']] := by
      simp [type, TypeTree.parts, TypeTree.partLists, markParts, List.intercalate_cons_cons]
    rw [parts]
    exact .cons blank <| .cons blank <| .cons none <| .cons blank <| .cons blank <| .cons none <|
      .cons none <| .cons none <| .cons none <| .cons blank <| .cons blank <| .cons none <|
      .cons none <| .cons blank <| .cons none <| .nil none
  have optional : ∀ c ∈ some '!', isOptionalMark c = true := by
    rintro c ⟨⟩
    rfl
  exact ⟨named, plain, spread, TypeMapping.dartType_spread named plain optional spread⟩

end Marks

end DartBindings.Dart
