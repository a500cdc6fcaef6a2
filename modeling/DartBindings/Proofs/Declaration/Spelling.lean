import DartBindings.Declaration.Signature
import DartBindings.Proofs.Source.Listed
import DartBindings.Proofs.Source.Passage

/-!
Types and their spelling. A spelled type keeps its brackets and angles balanced except for
arrows, no blank comes right after a word in it, and no separator stands outside its brackets.
-/

set_option autoImplicit false

namespace DartBindings.Declaration

open Text Source Bridge

/-! ## Types -/

/-- The types that signatures are written with. -/
inductive TypeTree where
  | name (word : String)
  | generic (word : String) (arguments : List TypeTree)
  | list (element : TypeTree)
  | dictionary (key value : TypeTree)
  | function (arguments : List TypeTree) (result : TypeTree)
  | optional (type : TypeTree)
  deriving Repr

mutual

/-- A type as it is written: `A<B, C>`, `[A]`, `[K: V]`, `(A, B) -> C`, `A?`. -/
def TypeTree.spelling : TypeTree → List Char
  | .name word => word.toList
  | .generic word arguments => word.toList ++ '<' :: (listed ',' (spellings arguments) ++ ['>'])
  | .list element => '[' :: (element.spelling ++ [']'])
  | .dictionary key value => '[' :: (listed ':' [key.spelling, value.spelling] ++ [']'])
  | .function arguments result =>
    '(' :: (listed ',' (spellings arguments) ++ [')']) ++ (" -> ".toList ++ result.spelling)
  | .optional type => type.spelling ++ ['?']

def TypeTree.spellings : List TypeTree → List (List Char)
  | [] => []
  | type :: types => type.spelling :: spellings types

end

/-- All names in the type are words. -/
inductive TypeTree.WellNamed : TypeTree → Prop where
  | name {word} : IsWord word.toList → WellNamed (.name word)
  | generic {word arguments} :
      IsWord word.toList → (∀ type ∈ arguments, WellNamed type) →
      WellNamed (.generic word arguments)
  | list {element} : WellNamed element → WellNamed (.list element)
  | dictionary {key value} :
      WellNamed key → WellNamed value → WellNamed (.dictionary key value)
  | function {arguments result} :
      (∀ type ∈ arguments, WellNamed type) → WellNamed result →
      WellNamed (.function arguments result)
  | optional {type} : WellNamed type → WellNamed (.optional type)

/-- The type of the parameter that a subscription writes to. -/
def TypeTree.isSink : TypeTree → Bool
  | .name word => sinkTypes.contains word
  | .optional type => type.isSink
  | _ => false

theorem TypeTree.spellings_eq_map (types : List TypeTree) :
    TypeTree.spellings types = types.map TypeTree.spelling := by
  induction types with
  | nil => rfl
  | cons type types ih => rw [TypeTree.spellings, ih, List.map_cons]

/-! ## Balance -/

theorem nested_listed {separator : Char} (joining : joins separator = true)
    {pieces : List (List Char)} (nested : ∀ piece ∈ pieces, Nested true piece) :
    Nested true (listed separator pieces) := by
  have cut : separator = ',' ∨ separator = ':' := by simpa [joins] using joining
  induction pieces with
  | nil => exact .nil
  | cons piece rest ih =>
      have first := nested piece List.mem_cons_self
      cases rest with
      | nil =>
          rw [listed_singleton]
          exact first
      | cons next rest =>
          have later := ih fun other member => nested other (List.mem_cons_of_mem _ member)
          rw [listed_cons_cons]
          exact first.append (.append (.separator cut) (.append .blank later))

theorem TypeTree.WellNamed.nested {type : TypeTree} (named : type.WellNamed) :
    Nested false type.spelling := by
  induction named with
  | name word => exact Nested.word word.chars
  | @generic word arguments named _ ih =>
      rw [TypeTree.spelling, TypeTree.spellings_eq_map]
      refine (Nested.word named.chars).append (.group .angle (nested_listed (by decide) ?_))
      intro piece member
      obtain ⟨type, among, rfl⟩ := List.mem_map.mp member
      exact (ih type among).within
  | list _ ih => exact .group .square ih.within
  | dictionary _ _ key value =>
      refine .group .square (nested_listed (by decide) ?_)
      intro piece member
      simp only [List.mem_cons, List.not_mem_nil, or_false] at member
      rcases member with rfl | rfl
      · exact key.within
      · exact value.within
  | @function arguments result _ _ ih value =>
      rw [TypeTree.spelling, TypeTree.spellings_eq_map]
      have arrow : Nested false " -> ".toList := .append .blank (.append .arrow .blank)
      refine Nested.append (.group .round (nested_listed (by decide) ?_)) (arrow.append value)
      intro piece member
      obtain ⟨type, among, rfl⟩ := List.mem_map.mp member
      exact (ih type among).within
  | optional _ ih => exact ih.append (.char (by decide))

/-! ## Ends -/

theorem isSolid_word {word : List Char} (named : IsWord word) : IsSolid word :=
  isSolid_of_forall named.nonempty fun c member => isBlank_of_isWordChar (named.chars c member)

theorem TypeTree.WellNamed.solid {type : TypeTree} (named : type.WellNamed) :
    IsSolid type.spelling := by
  have single (c : Char) (solid : isBlank c = false) : IsSolid [c] := isSolid_singleton solid
  induction named with
  | name word => exact isSolid_word word
  | @generic word arguments named _ _ =>
      rw [TypeTree.spelling]
      exact (isSolid_word named).append ('<' :: listed ',' _) (single '>' (by decide))
  | @list element _ _ =>
      rw [TypeTree.spelling]
      exact (single '[' (by decide)).append _ (single ']' (by decide))
  | dictionary _ _ _ _ =>
      rw [TypeTree.spelling]
      exact (single '[' (by decide)).append _ (single ']' (by decide))
  | @function arguments result _ _ _ ends =>
      rw [TypeTree.spelling, List.cons_append, ← List.append_assoc]
      exact (single '(' (by decide)).append _ ends
  | @optional type _ ih =>
      rw [TypeTree.spelling]
      exact ih.append [] (single '?' (by decide))

/-- A colon before a type is no double colon. -/
theorem TypeTree.WellNamed.first {type : TypeTree} (named : type.WellNamed) :
    ∃ c rest, type.spelling = c :: rest ∧ c ≠ ':' := by
  have word {word : List Char} (named : IsWord word) (after : List Char) :
      ∃ c rest, word ++ after = c :: rest ∧ c ≠ ':' := by
    obtain ⟨c, rest, rfl⟩ := List.exists_cons_of_ne_nil named.nonempty
    exact ⟨c, rest ++ after, rfl, ne_of_class (named.chars c List.mem_cons_self) (by decide)⟩
  induction named with
  | name named =>
      have first := word named []
      rwa [List.append_nil] at first
  | generic named _ _ => exact word named _
  | list _ _ => exact ⟨'[', _, rfl, by decide⟩
  | dictionary _ _ _ _ => exact ⟨'[', _, rfl, by decide⟩
  | function _ _ _ _ => exact ⟨'(', _, rfl, by decide⟩
  | optional _ ih =>
      obtain ⟨c, rest, first, other⟩ := ih
      exact ⟨c, rest ++ ['?'], by rw [TypeTree.spelling, first, List.cons_append], other⟩

/-! ## Words and what follows them -/

theorem tight_listed {separator : Char} (joining : joins separator = true)
    {pieces : List (List Char)} (tight : ∀ piece ∈ pieces, Tight piece) {closing : Char}
    (other : isWordChar closing = false) (apart : closing ≠ ' ' ∧ closing ≠ '(')
    {rest : List Char} (after : Tight rest) :
    Tight (listed separator pieces ++ closing :: rest) := by
  have cut : isWordChar separator = false ∧ separator ≠ ' ' ∧ separator ≠ '(' := by
    have cases : separator = ',' ∨ separator = ':' := by simpa [joins] using joining
    rcases cases with rfl | rfl <;> decide
  induction pieces with
  | nil => exact after.cons other
  | cons piece pieces ih =>
      have first := tight piece List.mem_cons_self
      cases pieces with
      | nil =>
          rw [listed_singleton]
          exact first.append_cons (after.cons other) apart
      | cons next pieces =>
          have later := ih fun other member => tight other (List.mem_cons_of_mem _ member)
          rw [listed_cons_cons, List.append_assoc, List.cons_append, List.cons_append]
          exact first.append_cons ((later.cons (by decide)).cons cut.1) cut.2

theorem TypeTree.WellNamed.tight {type : TypeTree} (named : type.WellNamed) :
    Tight type.spelling := by
  induction named with
  | name word => exact tight_word word.chars
  | @generic word arguments named _ ih =>
      rw [TypeTree.spelling, TypeTree.spellings_eq_map]
      have inner : Tight (listed ',' (arguments.map TypeTree.spelling) ++ ['>']) :=
        tight_listed (by decide) (List.forall_mem_map.mpr ih) (by decide) (by decide) tight_nil
      exact (tight_word named.chars).append_cons (inner.cons (by decide)) (by decide)
  | list _ ih =>
      have ended : Tight [']'] := tight_nil.cons (by decide)
      exact (ih.append_cons ended (by decide)).cons (by decide)
  | @dictionary key value _ _ first second =>
      have pieces : ∀ piece ∈ [key.spelling, value.spelling], Tight piece := by
        simpa using ⟨first, second⟩
      have inner : Tight (listed ':' [key.spelling, value.spelling] ++ [']']) :=
        tight_listed (by decide) pieces (by decide) (by decide) tight_nil
      exact inner.cons (by decide)
  | @function arguments result _ _ ih value =>
      rw [TypeTree.spelling, TypeTree.spellings_eq_map, List.cons_append, List.append_assoc,
        List.singleton_append]
      have arrow : Tight (" -> ".toList ++ result.spelling) :=
        (((value.cons (by decide)).cons (by decide)).cons (by decide)).cons (by decide)
      have inner : Tight (listed ',' (arguments.map TypeTree.spelling) ++
          ')' :: (" -> ".toList ++ result.spelling)) :=
        tight_listed (by decide) (List.forall_mem_map.mpr ih) (by decide) (by decide) arrow
      exact inner.cons (by decide)
  | optional _ ih =>
      have mark : Tight ['?'] := tight_nil.cons (by decide)
      exact ih.append_cons mark (by decide)

/-- In a tight text no word stands between blanks, so no clause of constraints begins. -/
theorem beforeConstraints_of_tight {text : List Char} (tight : Tight text) :
    beforeConstraints text = text := by
  induction text with
  | nil => rfl
  | cons c rest ih =>
      have none : " where ".toList.isPrefixOf (c :: rest) = false := by
        rw [Bool.eq_false_iff]
        intro starts
        obtain ⟨after, split⟩ := List.isPrefixOf_iff_prefix.mp starts
        have clause : Tight (" wher".toList ++ 'e' :: ' ' :: after) := by
          rw [← split] at tight
          exact tight
        have ended := (List.isChain_cons_cons.mp clause.of_append).1 (by decide)
        exact ended.1 rfl
      rw [beforeConstraints, none]
      simp [ih tight.tail]

/-! ## Sinks -/

theorem withoutOptionalMarks_optional {text : List Char} (solid : IsSolid text) :
    withoutOptionalMarks (text ++ ['?']) = withoutOptionalMarks text := by
  have marked : IsSolid (text ++ ['?']) := solid.append [] (isSolid_singleton (by decide))
  rw [withoutOptionalMarks, withoutOptionalMarks, strip_of_isSolid marked,
    strip_of_isSolid solid, dropEndWhile_append (by simp)]

theorem lastComponent_of_not_mem {text : List Char} (none : '.' ∉ text) :
    lastComponent text = text := by
  have whole : text.reverse.takeWhile (fun c => c != '.') = text.reverse := by
    rw [List.takeWhile_eq_self_iff]
    intro c member
    rw [bne_iff_ne]
    rintro rfl
    exact none (List.mem_reverse.mp member)
  rw [lastComponent, whole, List.reverse_reverse]

theorem mem_of_mem_dropEndWhile {p : Char → Bool} {text : List Char} {c : Char}
    (member : c ∈ dropEndWhile p text) : c ∈ text :=
  List.mem_reverse.mp ((List.dropWhile_sublist p).subset (List.mem_reverse.mp member))

theorem mem_of_mem_withoutOptionalMarks {text : List Char} {c : Char}
    (member : c ∈ withoutOptionalMarks text) : c ∈ text := by
  have strip {text : List Char} (inside : c ∈ strip text) : c ∈ text :=
    (List.dropWhile_sublist isBlank).subset (mem_of_mem_dropEndWhile inside)
  exact strip (mem_of_mem_dropEndWhile (strip member))

theorem isSink_of_bracket {text : List Char} {c : Char} (bracket : c ∈ ['(', '[', '<'])
    (member : c ∈ text) (plain : '.' ∉ text) (name : String) :
    isSink ⟨name, String.ofList text⟩ = false := by
  have facts : isBlank c = false ∧ (c == '?' || c == '!') = false ∧
      ∀ sink ∈ sinkTypes, c ∉ sink.toList := by
    simp only [List.mem_cons, List.not_mem_nil, or_false] at bracket
    rcases bracket with rfl | rfl | rfl <;> decide
  have kept : c ∈ withoutOptionalMarks text :=
    mem_strip (mem_dropEndWhile (mem_strip member facts.1) facts.2.1) facts.1
  have whole := lastComponent_of_not_mem fun stop => plain (mem_of_mem_withoutOptionalMarks stop)
  rw [isSink, String.toList_ofList, whole, List.contains_eq_mem, decide_eq_false_iff_not]
  intro sink
  exact facts.2.2 _ sink (by simpa using kept)

theorem withoutOptionalMarks_word {word : List Char} (named : IsWord word) :
    withoutOptionalMarks word = word := by
  have solid := isSolid_word named
  obtain ⟨front, c, split, -⟩ := solid.last
  have last : isWordChar c = true := named.chars c (by simp [split])
  have kept : (c == '?' || c == '!') = false := by
    have question := ne_of_class last (d := '?') (by decide)
    have exclamation := ne_of_class last (d := '!') (by decide)
    simp [question, exclamation]
  have whole : dropEndWhile (fun c => c == '?' || c == '!') word = word := by
    rw [split]
    exact dropEndWhile_concat kept front
  rw [withoutOptionalMarks, strip_of_isSolid solid, whole, strip_of_isSolid solid]

theorem TypeTree.WellNamed.isSink {type : TypeTree} (named : type.WellNamed) (name : String) :
    Declaration.isSink ⟨name, String.ofList type.spelling⟩ = type.isSink := by
  have plain : '.' ∉ type.spelling := fun member =>
    absurd (named.nested.chars '.' member) (by decide)
  induction named with
  | @name word spelled =>
      rw [TypeTree.spelling] at plain ⊢
      rw [Declaration.isSink, String.toList_ofList, withoutOptionalMarks_word spelled,
        lastComponent_of_not_mem plain, String.ofList_toList, TypeTree.isSink]
  | generic _ _ _ => exact isSink_of_bracket (c := '<') (by decide) (by simp [spelling]) plain name
  | list _ _ => exact isSink_of_bracket (c := '[') (by decide) (by simp [spelling]) plain name
  | dictionary _ _ _ _ =>
      exact isSink_of_bracket (c := '[') (by decide) (by simp [spelling]) plain name
  | function _ _ _ _ =>
      exact isSink_of_bracket (c := '(') (by decide) (by simp [spelling]) plain name
  | @optional type inner ih =>
      rw [TypeTree.spelling, List.mem_append, not_or] at plain
      rw [TypeTree.isSink, ← ih plain.1, Declaration.isSink, Declaration.isSink, TypeTree.spelling,
        String.toList_ofList, String.toList_ofList, withoutOptionalMarks_optional inner.solid]

end DartBindings.Declaration
