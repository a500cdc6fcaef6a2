import DartBindings.Declaration.Extraction
import DartBindings.Proofs.Source.Pieces

/-!
Which texts can be read.

There is one cause of failure in a dialect that says where return types stand: a parameter that
is nothing but colons before its default value. Every reader fails exactly where the reader
below it does, up to the extraction of a whole text.
-/

set_option autoImplicit false

namespace DartBindings.Declaration

open Text Source Bridge

/-! ## Failures of composed readers -/

theorem mapM_eq_error_iff {α β : Type} {read : α → Except ReadError β} {items : List α}
    {expected : ReadError}
    (only : ∀ item ∈ items, ∀ other, read item = .error other → other = expected)
    (cause : ReadError) :
    items.mapM read = .error cause ↔ ∃ item ∈ items, read item = .error cause := by
  induction items with
  | nil => simp [pure, Except.pure]
  | cons item items ih =>
      have onlyLater : ∀ other ∈ items, ∀ cause, read other = .error cause → cause = expected :=
        fun other member => only other (List.mem_cons_of_mem _ member)
      have later := ih onlyLater
      rw [List.mapM_cons]
      cases first : read item with
      | error other =>
          constructor
          · intro failed
            cases failed
            exact ⟨item, List.mem_cons_self, first⟩
          · rintro ⟨failing, member, failed⟩
            rw [only failing member cause failed, ← only item List.mem_cons_self other first]
            rfl
      | ok value =>
          cases rest : items.mapM read with
          | error other => simp [Bind.bind, Except.bind, first, ← later, rest]
          | ok values => simp [Bind.bind, Except.bind, pure, Except.pure, first, ← later, rest]

theorem Extraction.andThen_eq_error_iff {α β : Type} {first : Extraction α}
    {next : α → Extraction β} {cause : ReadError} :
    (first.andThen next).result = .error cause ↔
      first.result = .error cause ∨
        ∃ value, first.result = .ok value ∧ (next value).result = .error cause := by
  unfold Extraction.andThen
  cases found : first.result <;> simp

theorem Extraction.map_eq_error_iff {α β : Type} {change : α → β} {extraction : Extraction α}
    {cause : ReadError} :
    (extraction.map change).result = .error cause ↔ extraction.result = .error cause := by
  unfold Extraction.map
  cases found : extraction.result <;> simp [Except.map]

/-! ## Parameters -/

/-- A parameter that is nothing but colons and blanks before its default value. -/
def OnlyColons (piece : List Char) : Prop :=
  ∃ declaration defaults, splitTopLevel ['='] piece = declaration :: defaults ∧
    ∀ c ∈ declaration, c = ':' ∨ isBlank c = true

def HasOnlyColons (list : List Char) : Prop :=
  ∃ piece ∈ splitTopLevel [','] (stripComments list), OnlyColons piece

theorem parameter?_eq_error_iff {piece : List Char} {cause : ReadError} :
    parameter? piece = .error cause ↔ cause = .emptyParameter ∧ OnlyColons piece := by
  unfold parameter? OnlyColons
  cases parts : splitTopLevel ['='] piece with
  | nil => simp
  | cons declaration defaults =>
      cases labels : splitTopLevel [':'] declaration with
      | nil =>
          have colons := splitTopLevel_colon_eq_nil_iff.mp labels
          simp only [labels, Except.error.injEq, List.cons.injEq]
          constructor
          · rintro rfl
            exact ⟨rfl, declaration, defaults, ⟨rfl, rfl⟩, colons⟩
          · rintro ⟨rfl, -⟩
            rfl
      | cons label type =>
          simp only [labels]
          constructor
          · intro failed
            split at failed <;> cases failed
          · rintro ⟨-, other, rest, same, colons⟩
            cases same
            rw [splitTopLevel_colon_eq_nil_iff.mpr colons] at labels
            cases labels

theorem parameters_eq_error_iff (list : List Char) (cause : ReadError) :
    parameters list = .error cause ↔ cause = .emptyParameter ∧ HasOnlyColons list := by
  have only : ∀ piece ∈ splitTopLevel [','] (stripComments list), ∀ other,
      parameter? piece = .error other → other = .emptyParameter := fun _ _ _ failed =>
    (parameter?_eq_error_iff.mp failed).1
  have failing := mapM_eq_error_iff only cause
  simp only [parameter?_eq_error_iff, exists_and_left, and_left_comm] at failing
  unfold parameters HasOnlyColons
  rw [← failing]
  cases (splitTopLevel [','] (stripComments list)).mapM parameter? <;> simp [Except.map]

/-! ## Members -/

def ParameterList (text : List Char) (member : Header) (stop : Nat) (list : List Char) : Prop :=
  ∃ token, nextToken text member.stop stop = some token ∧ token.value = "(" ∧
    groupBody text token.stop '(' ')' = .ok list

theorem ReturnStyle.read_ok {style : ReturnStyle} (stated : style ≠ .unstated) (text : List Char)
    (pos stop : Nat) : ∃ type, style.read text pos stop = .ok type := by
  cases style with
  | colon => exact ⟨_, rfl⟩
  | arrow => exact ⟨_, rfl⟩
  | unstated => exact absurd rfl stated

theorem Dialect.signature?_eq_error_iff {dialect : Dialect} (stated : dialect.returns ≠ .unstated)
    (text : List Char) (member : Header) (stop : Nat) (cause : ReadError) :
    dialect.signature? text member.stop stop = .error cause ↔
      cause = .emptyParameter ∧
        ∃ list, ParameterList text member stop list ∧ HasOnlyColons list := by
  unfold Dialect.signature? ParameterList
  cases read : nextToken text member.stop stop with
  | none => simp
  | some token =>
      by_cases round : token.value = "("
      · cases group : groupBody text token.stop '(' ')' with
        | error failure => simp [round, group]
        | ok body =>
            obtain ⟨type, stating⟩ :=
              ReturnStyle.read_ok stated text (token.stop + body.length + 1) stop
            have failing := parameters_eq_error_iff body cause
            cases found : parameters body with
            | error other =>
                rw [found] at failing
                simpa [round, group, found, Bind.bind, Except.bind] using failing
            | ok values =>
                rw [found] at failing
                simpa [round, group, found, stating, Bind.bind, Except.bind, pure, Except.pure]
                  using failing
      · simp [round]

/-- A member of instances with a parameter of only colons. -/
def UnreadableMember (dialect : Dialect) (text : List Char) (stop : Nat) (member : Header) :
    Prop :=
  member.keyword = dialect.memberKeyword ∧
    dialect.typeLevel.any member.modifiers.contains = false ∧
    ∃ list, ParameterList text member stop list ∧ HasOnlyColons list

theorem Dialect.callable?_eq_error_iff {dialect : Dialect} (stated : dialect.returns ≠ .unstated)
    (text : List Char) (wholeClass : Bool) (stop : Nat) (member : Header) (cause : ReadError) :
    dialect.callable? text wholeClass stop member = .error cause ↔
      cause = .emptyParameter ∧ dialect.typeLevel.any member.modifiers.contains = false ∧
        ∃ list, ParameterList text member stop list ∧ HasOnlyColons list := by
  have failing := signature?_eq_error_iff stated text member stop cause
  unfold Dialect.callable?
  cases ofClass : dialect.typeLevel.any member.modifiers.contains with
  | true => simp
  | false =>
      cases read : dialect.signature? text member.stop stop with
      | error other =>
          rw [read] at failing
          simpa [read, Bind.bind, Except.bind] using failing
      | ok signature =>
          rw [read] at failing
          simpa [read, Bind.bind, Except.bind, pure, Except.pure] using failing

theorem callables_eq_error_iff {dialect : Dialect} (stated : dialect.returns ≠ .unstated)
    {text : List Char} {className : String} {wholeClass : Bool} {stop : Nat}
    {taken : List String} {members : List Header} {cause : ReadError} :
    (callables dialect text className wholeClass stop taken members).result = .error cause ↔
      cause = .emptyParameter ∧ ∃ member ∈ members, UnreadableMember dialect text stop member := by
  induction members generalizing taken with
  | nil => simp [callables, Extraction.found]
  | cons member rest ih =>
      have failing := Dialect.callable?_eq_error_iff stated text wholeClass stop member
      rw [callables]
      simp only [List.mem_cons, exists_eq_or_imp]
      by_cases keyword : member.keyword = dialect.memberKeyword
      · simp only [UnreadableMember, keyword, true_and, bne_self_eq_false, Bool.false_eq_true,
          ↓reduceIte]
        cases exposed : dialect.callable? text wholeClass stop member with
        | error other =>
            obtain ⟨rfl, unreadable⟩ := (failing other).mp exposed
            constructor
            · intro same
              cases same
              exact ⟨rfl, .inl unreadable⟩
            · rintro ⟨rfl, -⟩
              rfl
        | ok found =>
            have readable : ¬ (dialect.typeLevel.any member.modifiers.contains = false ∧
                ∃ list, ParameterList text member stop list ∧ HasOnlyColons list) := by
              intro unreadable
              have failed := (failing .emptyParameter).mpr ⟨rfl, unreadable⟩
              rw [exposed] at failed
              cases failed
            simp only [readable, false_or]
            cases found with
            | none => exact ih
            | some callable =>
                dsimp only
                split
                · exact ih
                · rw [Extraction.map_eq_error_iff]
                  exact ih
      · have other : (member.keyword != dialect.memberKeyword) = true := by simpa using keyword
        simp only [UnreadableMember, keyword, false_and, false_or, other, ↓reduceIte]
        exact ih

/-! ## Classes and texts -/

/-- The end of the body that starts at `start`: that of the text if it is never closed. -/
def bodyEnd (text : List Char) (start : Nat) : Nat :=
  match findClosing text start '\x7b' '\x7d' with
  | .ok stop => stop
  | .error _ => text.length

theorem bodyStop_result (text : List Char) (file : Option RawText) (className : String)
    (start : Nat) : (bodyStop text file className start).result = .ok (bodyEnd text start) := by
  unfold bodyStop bodyEnd
  cases findClosing text start '\x7b' '\x7d' <;> rfl

/-- A class that may be exposed, with a member that cannot be read. -/
def UnreadableClass (dialect : Dialect) (text : List Char) (header : Header) : Prop :=
  header.keyword = classKeyword ∧
    ∃ start, (opening text header.stop).body = some start ∧
      dialect.exposes header.name (opening text header.stop).words = true ∧
      ∃ member ∈ headers dialect text start (bodyEnd text start) true,
        UnreadableMember dialect text (bodyEnd text start) member

theorem entity?_eq_error_iff {dialect : Dialect} (stated : dialect.returns ≠ .unstated)
    (text : List Char) (file : Option RawText) {header : Header} (cause : ReadError)
    (keyword : header.keyword = classKeyword) :
    (entity? dialect text file header).result = .error cause ↔
      cause = .emptyParameter ∧ UnreadableClass dialect text header := by
  unfold entity? UnreadableClass
  cases body : (opening text header.stop).body with
  | none => simp [body, Extraction.found]
  | some start =>
      cases exposed : dialect.exposes header.name (opening text header.stop).words with
      | false => simp [body, exposed, Extraction.found]
      | true =>
          simp [body, exposed, keyword, Extraction.andThen_eq_error_iff, bodyStop_result,
            Extraction.map_eq_error_iff, callables_eq_error_iff stated]

theorem entities_eq_error_iff {dialect : Dialect} (stated : dialect.returns ≠ .unstated)
    (text : List Char) (file : Option RawText) (classes : List Header) (cause : ReadError) :
    (entities dialect text file classes).result = .error cause ↔
      cause = .emptyParameter ∧ ∃ header ∈ classes, UnreadableClass dialect text header := by
  induction classes with
  | nil => simp [entities, Extraction.found]
  | cons header rest ih =>
      rw [entities]
      simp only [List.mem_cons, exists_eq_or_imp]
      by_cases keyword : header.keyword = classKeyword
      · have first (other : ReadError) := entity?_eq_error_iff stated text file other keyword
        simp only [keyword, bne_self_eq_false, Bool.false_eq_true, ↓reduceIte,
          Extraction.andThen_eq_error_iff, Extraction.map_eq_error_iff, ih]
        rw [first cause, and_or_left]
        constructor
        · rintro (failed | ⟨_, _, failed⟩)
          · exact .inl failed
          · exact .inr failed
        · rintro (failed | failed)
          · exact .inl failed
          · -- a class before the one that fails has a value, unless it fails of the same cause
            obtain ⟨rfl, later⟩ := failed
            cases found : (entity? dialect text file header).result with
            | ok value => exact .inr ⟨value, rfl, rfl, later⟩
            | error other => exact .inl ⟨rfl, ((first other).mp found).2⟩
      · have other : (header.keyword != classKeyword) = true := by simpa using keyword
        simp only [UnreadableClass, keyword, false_and, false_or, other, ↓reduceIte]
        exact ih

/-- A text in which some class has a member that cannot be read. -/
def Unreadable (dialect : Dialect) (text : List Char) : Prop :=
  ∃ header ∈ headers dialect text 0 text.length false, UnreadableClass dialect text header

/-- Both dialects extract a text exactly if no parameter of a member that they read is nothing
but colons before its default value, and they fail for no other cause. -/
theorem extract_ok_iff {dialect : Dialect} (known : dialect ∈ [Dialect.kotlin, Dialect.swift])
    (text : List Char) (file : Option RawText) :
    ((∃ found, (extract dialect text file).result = .ok found) ↔ ¬ Unreadable dialect text) ∧
      ∀ cause, (extract dialect text file).result = .error cause → cause = .emptyParameter := by
  have stated : dialect.returns ≠ .unstated := by
    simp only [List.mem_cons, List.not_mem_nil, or_false] at known
    rcases known with rfl | rfl <;> simp [Dialect.kotlin, Dialect.swift]
  have failing := entities_eq_error_iff stated text file
    (headers dialect text 0 text.length false)
  rw [extract, Unreadable]
  cases result : (entities dialect text file (headers dialect text 0 text.length false)).result with
  | ok found =>
      have readable := mt (failing .emptyParameter).mpr (by simp [result])
      simpa using readable
  | error cause =>
      obtain ⟨rfl, unreadable⟩ := (failing cause).mp result
      simpa using unreadable

theorem not_unreadable_plain_member :
    Dialect.kotlin ∈ [Dialect.kotlin, Dialect.swift] ∧
      ¬ Unreadable .kotlin "class A { fun f(a: B) {} }".toList := by
  refine ⟨by simp, (extract_ok_iff (by simp) _ none).1.mp ?_⟩
  have found : (extract .kotlin "class A { fun f(a: B) {} }".toList none).result.isOk = true := by
    decide +kernel
  cases result : (extract .kotlin "class A { fun f(a: B) {} }".toList none).result with
  | ok entities => exact ⟨entities, rfl⟩
  | error cause =>
      rw [result] at found
      cases found

/-- A member whose only parameter is a colon makes the whole text fail. -/
theorem extract_colon_parameter_fails :
    ¬ ∃ found, (extract .kotlin "class A { fun f(:) {} }".toList none).result = .ok found := by
  rintro ⟨found, result⟩
  have failed : (extract .kotlin "class A { fun f(:) {} }".toList none).result.isOk = false := by
    decide +kernel
  rw [result] at failed
  cases failed

end DartBindings.Declaration
