import DartBindings.Proofs.Declaration.Members
import DartBindings.Proofs.Source.Interlude

/-!
The lines of written members, character by character: no reader mistakes anything in them for a
literal or a comment, and they close the brackets that they open.
-/

set_option autoImplicit false

namespace DartBindings.Declaration

open Text Source

variable {dialect : Dialect} {member : MemberText}

/-! ## Characters -/

/-- A character of what comes before the name of a member. -/
def isLeadChar (c : Char) : Bool :=
  isWordChar c || ['\n', ' ', '@'].contains c

theorem isLeadChar_of_isWord {word : List Char} (named : IsWord word) :
    ∀ c ∈ word, isLeadChar c = true := by
  intro c among
  simp [isLeadChar, named.chars c among]

theorem MemberText.lead_chars (regular : dialect.Regular)
    (known : ∀ modifier ∈ member.modifiers, modifier ∈ dialect.modifiers) (layout : Layout) :
    ∀ c ∈ member.lead dialect layout, isLeadChar c = true := by
  simp only [MemberText.lead, MemberText.prelude, List.forall_mem_cons, List.forall_mem_append]
  refine ⟨by decide, List.forall_mem_replicate.mpr (.inr rfl), ⟨?_, ?_⟩,
    isLeadChar_of_isWord regular.memberStarts.word, by decide, by simp⟩
  · intro c inside
    obtain ⟨marking, -, inside⟩ := List.mem_flatMap.mp inside
    rcases List.mem_cons.mp inside with rfl | inside
    · decide
    · rcases List.mem_append.mp inside with word | space
      · exact isLeadChar_of_isWord (regular.markers marking) c word
      · exact List.mem_singleton.mp space ▸ by decide
  · intro c inside
    obtain ⟨modifier, among, inside⟩ := List.mem_flatMap.mp inside
    rcases List.mem_append.mp inside with word | space
    · exact isLeadChar_of_isWord (regular.modifiers modifier (known modifier among)) c word
    · exact List.mem_singleton.mp space ▸ by decide

/-! ## Quiet lines -/

theorem isQuiet_of_class {p : Char → Bool} {text : List Char} (chars : ∀ c ∈ text, p c = true)
    (quotes : p '"' = false ∧ p '\'' = false) (slash : p '/' = false) (escape : p '\\' = false)
    (dollar : p '$' = false) : ∀ c ∈ text, isQuiet c = true := by
  intro c among
  have ne {d : Char} (other : p d = false) : c ≠ d := ne_of_class (chars c among) other
  simp [isQuiet, ne quotes.1, ne quotes.2, ne slash, ne escape, ne dollar]

theorem quiet_emptyBody : ∀ c ∈ emptyBody, isQuiet c = true := by
  simp [emptyBody, isQuiet]

theorem MemberText.Canonical.quiet_spelling (canonical : member.Canonical dialect)
    (regular : dialect.Regular) (layout : Layout) :
    ∀ c ∈ member.spelling dialect layout, isQuiet c = true := by
  have lead := isQuiet_of_class (member.lead_chars regular canonical.modifiers layout)
    (by decide) (by decide) (by decide) (by decide)
  have name := isQuiet_of_class canonical.name.word.chars (by decide) (by decide) (by decide)
    (by decide)
  have tail := isQuiet_of_class (canonical.nested_tail layout).chars (by decide) (by decide)
    (by decide) (by decide)
  rw [MemberText.spelling_eq]
  simp only [List.forall_mem_append]
  exact ⟨lead, name, tail, quiet_emptyBody⟩

/-! ## Level lines -/

theorem level_of_class {p : Char → Bool} {text : List Char} (chars : ∀ c ∈ text, p c = true)
    (quotes : p '"' = false ∧ p '\'' = false) (slash : p '/' = false)
    (round : p '(' = false ∧ p ')' = false) (curly : p '\x7b' = false ∧ p '\x7d' = false) :
    Level text := by
  apply level_of_inert
  intro lead opening closing starts c among
  cases starts with
  | round => exact inert_of_class (chars c among) quotes slash round.1 round.2
  | curly => exact inert_of_class (chars c among) quotes slash curly.1 curly.2

theorem Nested.level {inside : Bool} {text : List Char} (nested : Nested inside text) :
    Level text := by
  constructor
  intro lead opening closing starts depth positive rest
  cases starts with
  | round => exact nested.closingIndex_round positive rest
  | curly =>
      refine closingIndex_inert (fun c among => ?_) rest
      exact inert_of_class (nested.chars c among) (by decide) (by decide) (by decide) (by decide)

theorem level_emptyBody : Level emptyBody := by
  constructor
  intro lead opening closing starts depth positive rest
  have comment (c : Char) (slash : c ≠ '/') (tail : List Char) := commentLength_of_ne slash tail
  cases starts with
  | round => exact closingIndex_inert (by simp [emptyBody, Inert, isQuote]) rest
  | curly =>
      rw [emptyBody, List.cons_append, List.cons_append, List.singleton_append,
        closingIndex_other (by decide) (comment _ (by decide) _) (by decide) (by decide),
        closingIndex_opening (by decide) (comment _ (by decide) _),
        closingIndex_closing (by decide) (comment _ (by decide) _) (by decide), if_neg (by omega),
        map_add_map_add, map_add_map_add]
      rfl

theorem MemberText.level_lead (regular : dialect.Regular)
    (known : ∀ modifier ∈ member.modifiers, modifier ∈ dialect.modifiers) (layout : Layout) :
    Level (member.lead dialect layout) :=
  level_of_class (member.lead_chars regular known layout) (by decide) (by decide) (by decide)
    (by decide)

/-- A member closes what it opens, however its parameter list is written. -/
theorem MemberText.level_spelling (regular : dialect.Regular)
    (known : ∀ modifier ∈ member.modifiers, modifier ∈ dialect.modifiers)
    (named : IsName member.name) {layout : Layout}
    (tail : Nested true (member.tail dialect layout)) :
    Level (member.spelling dialect layout) := by
  have name : Level member.name.toList :=
    level_of_class named.word.chars (by decide) (by decide) (by decide) (by decide)
  rw [MemberText.spelling_eq]
  exact (member.level_lead regular known layout).append
    (name.append ((Nested.level tail).append level_emptyBody))

theorem MemberText.Canonical.level_spelling (canonical : member.Canonical dialect)
    (regular : dialect.Regular) (layout : Layout) : Level (member.spelling dialect layout) :=
  MemberText.level_spelling regular canonical.modifiers canonical.name
    (canonical.nested_tail layout)

theorem level_members (regular : dialect.Regular) {members : List MemberText}
    (canonical : ∀ member ∈ members, member.Canonical dialect) (layout : Layout) :
    Level (members.flatMap (MemberText.spelling dialect layout)) := by
  induction members with
  | nil => exact level_nil
  | cons member members ih =>
      obtain ⟨own, others⟩ := List.forall_mem_cons.mp canonical
      rw [List.flatMap_cons]
      exact (own.level_spelling regular layout).append (ih others)

end DartBindings.Declaration
