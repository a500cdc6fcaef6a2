import DartBindings.Proofs.Declaration.Passage
import DartBindings.Proofs.Declaration.SignatureText

/-!
Walks over written members. Each member gives one header with its own markers, modifiers and
signature, and from those it is exposed as the rules say.
-/

set_option autoImplicit false

namespace DartBindings.Declaration

open Text Source Bridge

/-! ## Regular dialects -/

/-- What both dialects have in common: their keywords, modifiers and markers are words that do
not get in each other's way. -/
structure Dialect.Regular (dialect : Dialect) : Prop where
  returns : dialect.returns.Proper
  modifiers : ∀ modifier ∈ dialect.modifiers, IsWord modifier.toList
  classMarker : IsWord dialect.classMarker.toList
  markers : ∀ marking : Marking, IsWord (marking.marker dialect).toList
  distinct : dialect.memberMarker ≠ dialect.exemptMarker
  classStarts : dialect.Starts classKeyword
  memberStarts : dialect.Starts dialect.memberKeyword
  apart : dialect.memberKeyword ≠ classKeyword

theorem Dialect.Regular.marker_injective {dialect : Dialect} (regular : dialect.Regular) :
    Function.Injective (Marking.marker dialect) := by
  intro first second same
  cases first <;> cases second
  · rfl
  · exact absurd same regular.distinct
  · exact absurd same.symm regular.distinct
  · rfl

theorem regular_of_known {dialect : Dialect} (known : dialect ∈ [Dialect.kotlin, Dialect.swift]) :
    dialect.Regular := by
  simp only [List.mem_cons, List.not_mem_nil, or_false] at known
  rcases known with rfl | rfl
  · constructor
    · trivial
    · decide
    · decide
    · intro marking
      cases marking <;> decide
    · decide
    · exact ⟨by decide, .inl rfl, by decide⟩
    · exact ⟨by decide, .inr rfl, by decide⟩
    · decide
  · constructor
    · constructor <;> decide
    · decide
    · decide
    · intro marking
      cases marking <;> decide
    · decide
    · exact ⟨by decide, .inl rfl, by decide⟩
    · exact ⟨by decide, .inr rfl, by decide⟩
    · decide

variable {dialect : Dialect} {text after : List Char} {extent : Extent} {pos stop : Nat}

/-! ## What comes before the keyword -/

theorem Walk.headers_markings (regular : dialect.Regular) {markings : List Marking}
    (window : Window text extent.stop pos ((markings.flatMap fun marking =>
      '@' :: ((marking.marker dialect).toList ++ [' '])) ++ after))
    (markers modifiers : List String) :
    ∃ next, Window text extent.stop next after ∧
      Walk.headers dialect text extent ⟨pos, markers, modifiers, false⟩ =
        Walk.headers dialect text extent
          ⟨next, markers ++ markings.map (Marking.marker dialect), modifiers, false⟩ := by
  induction markings generalizing pos markers with
  | nil => exact ⟨pos, window, by rw [List.map_nil, List.append_nil]⟩
  | cons marking markings ih =>
      have named := regular.markers marking
      have first : Window text extent.stop pos ('@' :: ((marking.marker dialect).toList ++
          ' ' :: ((markings.flatMap fun marking =>
            '@' :: ((marking.marker dialect).toList ++ [' '])) ++ after))) := by
        simpa using window
      have beyond := first.of_append ('@' :: (marking.marker dialect).toList)
      rw [List.length_cons, String.length_toList] at beyond
      obtain ⟨next, rest, same⟩ := ih beyond.tail (markers ++ [marking.marker dialect])
      refine ⟨next, rest, ?_⟩
      rw [Walk.headers_marker named (by decide) first, Walk.headers_blank (by decide) beyond, same,
        List.map_cons, List.append_assoc, List.singleton_append]

theorem Walk.headers_modifiers (regular : dialect.Regular) {words : List String}
    (known : ∀ word ∈ words, word ∈ dialect.modifiers)
    (window : Window text extent.stop pos
      ((words.flatMap fun word => word.toList ++ [' ']) ++ after))
    (markers modifiers : List String) :
    ∃ next, Window text extent.stop next after ∧
      Walk.headers dialect text extent ⟨pos, markers, modifiers, false⟩ =
        Walk.headers dialect text extent ⟨next, markers, modifiers ++ words, false⟩ := by
  induction words generalizing pos modifiers with
  | nil => exact ⟨pos, window, by rw [List.append_nil]⟩
  | cons word words ih =>
      have modifier := known word List.mem_cons_self
      have first : Window text extent.stop pos (word.toList ++
          ' ' :: ((words.flatMap fun word => word.toList ++ [' ']) ++ after)) := by
        simpa using window
      have beyond := first.of_append word.toList
      rw [String.length_toList] at beyond
      have others := fun other among => known other (List.mem_cons_of_mem _ among)
      obtain ⟨next, rest, same⟩ := ih others beyond.tail (modifiers ++ [word])
      refine ⟨next, rest, ?_⟩
      rw [Walk.headers_modifier (regular.modifiers word modifier) (by simpa using modifier)
        (by decide) first, Walk.headers_blank (by decide) beyond, same, List.append_assoc,
        List.singleton_append]

/-! ## One member -/

section Member

variable {member : MemberText}

theorem nested_blanks (n : Nat) {inside : Bool} : Nested inside (List.replicate n ' ') := by
  induction n with
  | zero => exact .nil
  | succ n ih =>
      rw [List.replicate_succ]
      exact Nested.append .blank ih

theorem tight_blanks {rest : List Char} (tight : Tight rest) (n : Nat) :
    Tight (List.replicate n ' ' ++ rest) := by
  induction n with
  | zero => exact tight
  | succ n ih =>
      rw [List.replicate_succ, List.cons_append]
      exact ih.cons (by decide)

theorem ReturnStyle.nested_spelling (style : ReturnStyle) (layout : Layout)
    {result : Option TypeTree} (named : ∀ type ∈ result, type.WellNamed) :
    Nested true (style.spelling layout result) ∧ Tight (style.spelling layout result) := by
  cases result with
  | none => exact ⟨.nil, tight_nil⟩
  | some type =>
      have wellNamed := named type rfl
      have type := wellNamed.nested.within
      cases style with
      | colon =>
          exact ⟨Nested.append (.separator (.inr rfl)) ((nested_blanks layout.gap).append type),
            (tight_blanks wellNamed.tight layout.gap).cons (by decide)⟩
      | arrow effects =>
          have arrow : Nested true " -> ".toList := .append .blank (.append .arrow .blank)
          have tight := wellNamed.tight
          exact ⟨arrow.append type, (((tight.cons (by decide)).cons (by decide)).cons
            (by decide)).cons (by decide)⟩
      | unstated => exact ⟨.nil, tight_nil⟩

theorem MemberText.nested_tail (list : Nested true member.list)
    (named : ∀ type ∈ member.result, type.WellNamed) (dialect : Dialect) (layout : Layout) :
    Nested true (member.tail dialect layout) := by
  have group : Nested true ('(' :: (member.list ++ [')'])) := .group .round list
  have whole : member.tail dialect layout = '(' :: (member.list ++ [')']) ++
      dialect.returns.spelling layout member.result := by
    simp [MemberText.tail]
  rw [whole]
  exact group.append (dialect.returns.nested_spelling layout named).1

theorem MemberText.Canonical.nested_tail (canonical : member.Canonical dialect) (layout : Layout) :
    Nested true (member.tail dialect layout) :=
  MemberText.nested_tail canonical.nested_list canonical.result dialect layout

theorem MemberText.Canonical.isPassage (canonical : member.Canonical dialect) (layout : Layout) :
    IsPassage (member.tail dialect layout) := by
  have parameters : ∀ piece ∈ member.parameters.map ParameterText.spelling, Tight piece :=
    List.forall_mem_map.mpr fun parameter among => (canonical.parameters parameter among).tight
  have inner : Tight (member.list ++ ')' :: dialect.returns.spelling layout member.result) :=
    tight_listed (by decide) parameters (by decide) (by decide)
      (dialect.returns.nested_spelling layout canonical.result).2
  exact (canonical.nested_tail layout).isPassage (inner.cons (by decide))

/-- The header of a written member, from its keyword to the end of its name. -/
def MemberText.header (dialect : Dialect) (member : MemberText) (start stop : Nat) : Header :=
  ⟨dialect.memberKeyword, member.name, member.markings.map (Marking.marker dialect),
    member.modifiers, start, stop⟩

/-- The line of a member up to its name. -/
def MemberText.lead (dialect : Dialect) (layout : Layout) (member : MemberText) : List Char :=
  '\n' :: (List.replicate layout.indent ' ' ++
    (member.prelude dialect ++ (dialect.memberKeyword.toList ++ [' '])))

theorem MemberText.spelling_eq (dialect : Dialect) (layout : Layout) (member : MemberText) :
    member.spelling dialect layout =
      member.lead dialect layout ++
        (member.name.toList ++ (member.tail dialect layout ++ emptyBody)) := by
  simp [MemberText.spelling, MemberText.lead]

/-- A walk comes to the keyword of a member with its markers and modifiers. -/
theorem Walk.headers_lead (regular : dialect.Regular)
    (known : ∀ modifier ∈ member.modifiers, modifier ∈ dialect.modifiers) {layout : Layout}
    (window : Window text extent.stop pos (member.lead dialect layout ++ after)) :
    ∃ keyword, Window text extent.stop keyword
        (dialect.memberKeyword.toList ++ ' ' :: after) ∧
      (Walk.start pos).headers dialect text extent =
        Walk.headers dialect text extent
          ⟨keyword, member.markings.map (Marking.marker dialect), member.modifiers, false⟩ := by
  simp only [MemberText.lead, MemberText.prelude, List.cons_append, List.append_assoc] at window
  have spaces : ∀ c ∈ List.replicate layout.indent ' ', isBlank c = true :=
    List.forall_mem_replicate.mpr (.inr rfl)
  have line := window.tail.of_append (List.replicate layout.indent ' ')
  obtain ⟨markersEnd, marked, markings⟩ := Walk.headers_markings regular line [] []
  obtain ⟨keyword, prefixed, modifiers⟩ :=
    Walk.headers_modifiers regular known marked
      ([] ++ member.markings.map (Marking.marker dialect)) []
  refine ⟨keyword, prefixed, ?_⟩
  rw [Walk.start, Walk.headers_blank (by decide) window, Walk.headers_blanks spaces window.tail,
    markings, modifiers, List.nil_append, List.nil_append]

/-- A walk finds a member at its name, however its parameter list is written. -/
theorem Walk.headers_named (regular : dialect.Regular)
    (known : ∀ modifier ∈ member.modifiers, modifier ∈ dialect.modifiers)
    (named : IsName member.name) {layout : Layout}
    (window : Window text extent.stop pos (member.spelling dialect layout ++ after)) :
    ∃ start name,
      Window text extent.stop name (member.tail dialect layout ++ (emptyBody ++ after)) ∧
      (Walk.start pos).headers dialect text extent =
        member.header dialect start name :: (Walk.start name).headers dialect text extent := by
  simp only [MemberText.spelling_eq, List.append_assoc] at window
  obtain ⟨keyword, prefixed, walked⟩ := Walk.headers_lead regular known window
  have ends : EndsWord (member.tail dialect layout ++ (emptyBody ++ after)) :=
    endsWord_cons (by decide) _
  have declared := Walk.headers_declaration regular.memberStarts named.word named.free ends prefixed
    (member.markings.map (Marking.marker dialect)) member.modifiers
  have signature := (prefixed.of_append dialect.memberKeyword.toList).tail.of_append
    member.name.toList
  rw [String.length_toList, String.length_toList] at signature
  refine ⟨keyword, _, signature, ?_⟩
  rw [walked, declared]
  rfl

/-- A walk finds a written member, and nothing else that counts, up to the end of its line. -/
theorem Walk.headers_member (regular : dialect.Regular) (canonical : member.Canonical dialect)
    {layout : Layout}
    (window : Window text extent.stop pos (member.spelling dialect layout ++ after)) :
    ∃ start name next found,
      Window text extent.stop name (member.tail dialect layout ++ (emptyBody ++ after)) ∧
      Window text extent.stop next after ∧
      (∀ header ∈ found, Harmless text extent.stop after header) ∧
      (Walk.start pos).headers dialect text extent =
        member.header dialect start name ::
          (found ++ (Walk.start next).headers dialect text extent) := by
  obtain ⟨start, name, signature, walked⟩ :=
    Walk.headers_named regular canonical.modifiers canonical.name window
  obtain ⟨found, next, beyond, harmless, rest⟩ :=
    Walk.headers_of_passing ⟨signature, canonical.isPassage layout⟩ [] [] false
  refine ⟨start, name, next, found, signature, beyond, harmless, ?_⟩
  rw [walked, Walk.start, rest]

/-! ## Exposure -/

theorem any_contains (first second : List String) :
    first.any second.contains = decide (∃ word ∈ second, word ∈ first) := by
  rw [Bool.eq_iff_iff, List.any_eq_true, decide_eq_true_eq]
  simp [and_comm]

theorem MemberText.Canonical.isSink_declared (canonical : member.Canonical dialect)
    {parameter : ParameterText} (among : parameter ∈ member.parameters) :
    isSink parameter.declared = parameter.type.isSink :=
  (canonical.parameters parameter among).type.isSink parameter.name

theorem any_isSink (canonical : member.Canonical dialect) :
    (member.parameters.map ParameterText.declared).any isSink =
      decide (∃ parameter ∈ member.parameters, parameter.type.isSink) := by
  rw [Bool.eq_iff_iff, List.any_map, List.any_eq_true, decide_eq_true_eq]
  constructor
  · rintro ⟨parameter, among, sink⟩
    exact ⟨parameter, among, by rwa [Function.comp, canonical.isSink_declared among] at sink⟩
  · rintro ⟨parameter, among, sink⟩
    exact ⟨parameter, among, by rwa [Function.comp, canonical.isSink_declared among]⟩

theorem filter_isSink (canonical : member.Canonical dialect) :
    (member.parameters.map ParameterText.declared).filter (fun parameter => !isSink parameter) =
      (member.parameters.filter fun parameter => !parameter.type.isSink).map
        ParameterText.declared := by
  have same : member.parameters.filter ((fun parameter => !isSink parameter) ∘
      ParameterText.declared) = member.parameters.filter fun parameter => !parameter.type.isSink :=
    List.filter_congr fun parameter among => by
      rw [Function.comp, canonical.isSink_declared among]
  rw [List.filter_map, same]

theorem exposesCall_header (regular : dialect.Regular) (member : MemberText) (marked : Bool)
    (start stop : Nat) :
    dialect.exposesCall marked (member.header dialect start stop) =
      member.isCall dialect marked := by
  have member_iff (marking : Marking) :
      marking.marker dialect ∈ member.markings.map (Marking.marker dialect) ↔
        marking ∈ member.markings :=
    List.mem_map_of_injective regular.marker_injective
  have exempt : dialect.exemptMarker ∈ _ ↔ _ := member_iff .exemption
  have exposed : dialect.memberMarker ∈ _ ↔ _ := member_iff .member
  rw [Bool.eq_iff_iff, Dialect.exposesCall, MemberText.isCall, MemberText.header]
  generalize member.markings.map (Marking.marker dialect) = markers at exempt exposed ⊢
  cases marked with
  | true => simp [exempt, imp_not_comm]
  | false => simp [exposed]

/-- Of a member only the signature depends on how its parameter list is written. -/
theorem callable?_of_signature (regular : dialect.Regular) (canonical : member.Canonical dialect)
    (start : Nat)
    (signature : dialect.signature? text pos stop =
      .ok (some ⟨member.parameters.map ParameterText.declared, member.returned dialect⟩))
    (marked : Bool) :
    dialect.callable? text marked stop (member.header dialect start pos) =
      .ok (member.callable? dialect marked) := by
  have name : (member.header dialect start pos).name = member.name := rfl
  have modifiers : (member.header dialect start pos).modifiers = member.modifiers := rfl
  have read : (member.header dialect start pos).stop = pos := rfl
  unfold Dialect.callable? MemberText.callable?
  rw [modifiers, any_contains, read, signature]
  simp only [decide_eq_true_eq]
  split
  · rfl
  · simp only [Bind.bind, Except.bind, pure, Except.pure, Option.bind_some, Dialect.expose,
      any_isSink canonical, filter_isSink canonical, name, decide_eq_true_eq,
      exposesCall_header regular]

theorem callable?_header (regular : dialect.Regular) (canonical : member.Canonical dialect)
    {layout : Layout} (start : Nat)
    (window : Window text stop pos (member.tail dialect layout ++ (emptyBody ++ after)))
    (marked : Bool) :
    dialect.callable? text marked stop (member.header dialect start pos) =
      .ok (member.callable? dialect marked) :=
  callable?_of_signature regular canonical start
    (Dialect.signature?_tail regular.returns canonical layout window) marked

end Member

end DartBindings.Declaration
