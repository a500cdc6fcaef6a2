import DartBindings.Proofs.Declaration.Reaches
import DartBindings.Proofs.Declaration.Readable
import Mathlib.Data.List.Chain

/-!
Members of the class itself.

A Swift member is of its class if one of the words before its keyword is `static` or `class`. The
second of them is a keyword too, and a walk takes it for the start of a class unless the token
after it starts another declaration. Then whatever waited for the member is lost. The words that
are not lost decide whether the member is left out.
-/

set_option autoImplicit false

namespace DartBindings.Declaration

open Text Source Bridge

/-! ## The words before a keyword -/

/-- What may stand before the keyword of a Swift member. -/
inductive PreludeWord where
  | marker (name : String)
  | modifier (word : String)
  | ofClass
  deriving DecidableEq, Repr

def PreludeWord.marker? : PreludeWord → Option String
  | .marker name => some name
  | _ => none

def PreludeWord.modifier? : PreludeWord → Option String
  | .marker _ => none
  | .modifier word => some word
  | .ofClass => some classKeyword

def PreludeWord.isTypeLevel : PreludeWord → Bool
  | .marker _ => false
  | .modifier word => Dialect.swift.typeLevel.contains word
  | .ofClass => true

/-- From `pos` up to `next` the text reads these words. Argument lists may follow the markers. -/
inductive ReadsPrelude (text : List Char) (stop : Nat) :
    Nat → List PreludeWord → Nat → Prop where
  | nil {pos} : ReadsPrelude text stop pos [] pos
  | marker {pos next token words} :
      nextToken text pos stop = some token → token.kind = .marker →
      ReadsPrelude text stop (skipArguments text token.stop stop) words next →
      ReadsPrelude text stop pos (.marker token.value :: words) next
  | modifier {pos next token words} :
      nextToken text pos stop = some token → Dialect.swift.isModifier token = true →
      skipArguments text token.stop stop = token.stop →
      ReadsPrelude text stop token.stop words next →
      ReadsPrelude text stop pos (.modifier token.value :: words) next
  | ofClass {pos next token words} :
      nextToken text pos stop = some token → token.kind = .word → token.value = classKeyword →
      ReadsPrelude text stop token.stop words next →
      ReadsPrelude text stop pos (.ofClass :: words) next

/-- At `pos` the text reads a member: these words, the keyword and the name. -/
structure ReadsMember (text : List Char) (stop pos : Nat) (words : List PreludeWord)
    (keyword name : Token) : Prop where
  prelude : ∃ next, ReadsPrelude text stop pos words next ∧
    nextToken text next stop = some keyword
  kind : keyword.kind = .word
  value : keyword.value = "func"
  named : (nameToken text keyword.stop stop).2 = some name
  word : name.kind = .word

/-- The words that still wait for the member at its keyword, where `pending` wait at first. A
`class` before a modifier is taken for the start of a class of that name, and one before a marker
for a class without a name, unless the marker is named like a keyword. No word up to there waits
any longer. -/
def waiting (pending : List PreludeWord) : List PreludeWord → List PreludeWord
  | [] => pending
  | .ofClass :: .modifier _ :: rest => waiting [] rest
  | .ofClass :: .marker name :: rest =>
    if declarationWords.contains name then waiting (pending ++ [.ofClass, .marker name]) rest
    else waiting [.marker name] rest
  | word :: rest => waiting (pending ++ [word]) rest

/-- Every `class` comes after all markers and modifiers. -/
def ClassLast (words : List PreludeWord) : Prop :=
  words.IsChain fun first second => first = .ofClass → second = .ofClass

theorem waiting_of_classLast {words : List PreludeWord} (last : ClassLast words)
    (pending : List PreludeWord) : waiting pending words = pending ++ words := by
  induction words generalizing pending with
  | nil => rw [waiting, List.append_nil]
  | cons word rest ih =>
      obtain ⟨apart, later⟩ := List.isChain_cons.mp last
      have step : waiting pending (word :: rest) = waiting (pending ++ [word]) rest := by
        cases word with
        | marker name => simp [waiting]
        | modifier word => simp [waiting]
        | ofClass =>
            cases rest with
            | nil => simp [waiting]
            | cons next rest =>
                obtain rfl := apart next rfl rfl
                simp [waiting]
      rw [step, ih later, List.append_assoc, List.singleton_append]

/-! ## Walks over the words -/

section Walk

variable {text : List Char} {stop pos next : Nat} {words : List PreludeWord}

/-- The walk stands at `pos`, and these words wait for a header. -/
def Walk.pending (pos : Nat) (words : List PreludeWord) : Walk :=
  ⟨pos, words.filterMap PreludeWord.marker?, words.filterMap PreludeWord.modifier?, false⟩

/-- From here on a walk finds classes only, up to the keyword of the member, and the words wait
there. -/
def Carries (text : List Char) (stop next : Nat) (found : List Header) (words : List PreludeWord) :
    Prop :=
  ∃ classes : List Header, (∀ header ∈ classes, header.keyword = classKeyword) ∧
    found = classes ++ (Walk.pending next words).headers .swift text ⟨stop, true⟩

theorem Carries.cons_class {found : List Header} {header : Header}
    (keyword : header.keyword = classKeyword) (carries : Carries text stop next found words) :
    Carries text stop next (header :: found) words := by
  obtain ⟨classes, only, rfl⟩ := carries
  refine ⟨header :: classes, ?_, List.cons_append.symm⟩
  intro other member
  rcases List.mem_cons.mp member with rfl | later
  · exact keyword
  · exact only other later

theorem isQualifier_of_isWord {token : Token} (named : IsWord token.value.toList) :
    isQualifier token = false :=
  isQualifier_word named token.kind token.start token.stop

theorem isWord_of_isModifier {token : Token} (modifier : Dialect.swift.isModifier token = true) :
    IsWord token.value.toList := by
  have words : ∀ word ∈ Dialect.swift.modifiers, IsWord word.toList := by decide
  simp only [Dialect.isModifier, Bool.and_eq_true, List.contains_iff_mem] at modifier
  exact words _ modifier.2

theorem Walk.headers_pending_marker {token : Token} (read : nextToken text pos stop = some token)
    (kind : token.kind = .marker) (pending : List PreludeWord) :
    (Walk.pending pos pending).headers .swift text ⟨stop, true⟩ =
      (Walk.pending (skipArguments text token.stop stop) (pending ++ [.marker token.value])).headers
        .swift text ⟨stop, true⟩ := by
  have unqualified := isQualifier_of_isWord (nextToken_marker_isWord read kind)
  rw [@Walk.headers_of_some .swift text ⟨stop, true⟩ (Walk.pending pos pending) token read]
  simp [Walk.pending, Walk.atToken, kind, unqualified, List.filterMap_cons, PreludeWord.marker?,
    PreludeWord.modifier?]

theorem Walk.headers_pending_modifier {token : Token}
    (read : nextToken text pos stop = some token)
    (modifier : Dialect.swift.isModifier token = true)
    (bare : skipArguments text token.stop stop = token.stop) (pending : List PreludeWord) :
    (Walk.pending pos pending).headers .swift text ⟨stop, true⟩ =
      (Walk.pending token.stop (pending ++ [.modifier token.value])).headers .swift text
        ⟨stop, true⟩ := by
  have unqualified := isQualifier_of_isWord (isWord_of_isModifier modifier)
  have kind : token.kind = .word := by
    simp only [Dialect.isModifier, Bool.and_eq_true, beq_iff_eq] at modifier
    exact modifier.1
  rw [@Walk.headers_of_some .swift text ⟨stop, true⟩ (Walk.pending pos pending) token read]
  simp [Walk.pending, Walk.atToken, kind, modifier, bare, unqualified, List.filterMap_cons,
    PreludeWord.marker?, PreludeWord.modifier?]

/-- What a walk finds after the word `class`, where `pending` waited before it. -/
def afterClass (text : List Char) (stop : Nat) (pending : List PreludeWord) (token : Token) :
    List Header :=
  let step := (Walk.pending token.start pending).atKeyword text ⟨stop, true⟩ token
  step.2.toList ++ step.1.headers .swift text ⟨stop, true⟩

theorem Walk.headers_pending_class {token : Token} (read : nextToken text pos stop = some token)
    (kind : token.kind = .word) (value : token.value = classKeyword)
    (pending : List PreludeWord) :
    (Walk.pending pos pending).headers .swift text ⟨stop, true⟩ =
      afterClass text stop pending token := by
  have noModifier : Dialect.swift.isModifier token = false := by
    have other : Dialect.swift.modifiers.contains classKeyword = false := by decide
    rw [Dialect.isModifier, value, other, Bool.and_false]
  have keyword : Dialect.swift.isKeyword token = true := by
    simp [Dialect.isKeyword, kind, value]
  rw [@Walk.headers_of_some .swift text ⟨stop, true⟩ (Walk.pending pos pending) token read]
  simp only [Walk.pending, Walk.atToken, kind, noModifier, keyword, afterClass, Walk.atKeyword]
  rfl

theorem afterClass_of_nameToken {token name : Token} (pending : List PreludeWord)
    (value : token.value = classKeyword)
    (read : nameToken text token.stop stop = (token.stop, some name)) :
    afterClass text stop pending token =
      if declarationWords.contains name.value then
        (Walk.pending token.stop (pending ++ [.ofClass])).headers .swift text ⟨stop, true⟩
      else if name.kind == .word then
        ⟨classKeyword, name.value, pending.filterMap PreludeWord.marker?,
            pending.filterMap PreludeWord.modifier?, token.start, name.stop⟩ ::
          Walk.headers .swift text ⟨stop, true⟩ ⟨name.stop, [], [], isQualifier name⟩
      else (Walk.pending token.stop []).headers .swift text ⟨stop, true⟩ := by
  have unqualified : isQualifier token = false := by
    rw [isQualifier, value]
    decide
  unfold afterClass Walk.atKeyword
  rw [read]
  dsimp only
  rw [value, beq_self_eq_true, Bool.true_and]
  split
  · simp [Walk.pending, unqualified, List.filterMap_cons, PreludeWord.marker?,
      PreludeWord.modifier?]
  · split
    · simp [Walk.pending]
    · simp [Walk.pending, unqualified]

theorem nameToken_of_ne_angle {token : Token} (read : nextToken text pos stop = some token)
    (noGroup : token.value ≠ "<") : nameToken text pos stop = (pos, some token) := by
  simp [nameToken, read, noGroup]

/-- Before a word that declares something, `class` waits with the other words. -/
theorem afterClass_of_declares {token next : Token} (value : token.value = classKeyword)
    (read : nextToken text token.stop stop = some next)
    (declares : declarationWords.contains next.value = true) (pending : List PreludeWord) :
    afterClass text stop pending token =
      (Walk.pending token.stop (pending ++ [.ofClass])).headers .swift text ⟨stop, true⟩ := by
  have noGroup : next.value ≠ "<" := by
    intro angle
    rw [angle] at declares
    exact absurd declares (by decide)
  rw [afterClass_of_nameToken pending value (nameToken_of_ne_angle read noGroup), if_pos declares]

/-- A marker is no name of a class. Only one that is named like a keyword leaves the words before
it waiting. -/
theorem afterClass_of_marker {token next : Token} (value : token.value = classKeyword)
    (read : nextToken text token.stop stop = some next) (kind : next.kind = .marker)
    (pending : List PreludeWord) :
    afterClass text stop pending token =
      (Walk.pending token.stop
        (if declarationWords.contains next.value then pending ++ [.ofClass] else [])).headers
          .swift text ⟨stop, true⟩ := by
  have named := nextToken_marker_isWord read kind
  have noGroup : next.value ≠ "<" := by
    intro angle
    rw [angle] at named
    exact absurd (named.chars '<' (by decide)) (by decide)
  have noWord : (next.kind == .word) = false := by
    rw [kind]
    rfl
  rw [afterClass_of_nameToken pending value (nameToken_of_ne_angle read noGroup), noWord]
  split <;> rfl

/-- A modifier is taken for the name of a class. -/
theorem afterClass_of_modifier {token next : Token} (value : token.value = classKeyword)
    (read : nextToken text token.stop stop = some next)
    (modifier : Dialect.swift.isModifier next = true) (pending : List PreludeWord) :
    ∃ header : Header, header.keyword = classKeyword ∧ afterClass text stop pending token =
      header :: (Walk.pending next.stop []).headers .swift text ⟨stop, true⟩ := by
  have known : next.kind = .word ∧ next.value ∈ Dialect.swift.modifiers := by
    simpa [Dialect.isModifier] using modifier
  have free : ∀ word ∈ Dialect.swift.modifiers,
      word ≠ "<" ∧ declarationWords.contains word = false := by
    decide
  obtain ⟨noGroup, undeclared⟩ := free next.value known.2
  have start := isQualifier_of_isWord (isWord_of_isModifier modifier)
  rw [afterClass_of_nameToken pending value (nameToken_of_ne_angle read noGroup), undeclared,
    known.1, start]
  exact ⟨_, rfl, rfl⟩

/-- A prelude hands on to the keyword after it the words that still wait there. After the word
`class` it depends on the next word whether anything does. -/
theorem ReadsPrelude.carries {keyword : Token} (reads : ReadsPrelude text stop pos words next)
    (ends : nextToken text next stop = some keyword) (value : keyword.value = "func") :
    (∀ pending, Carries text stop next
        ((Walk.pending pos pending).headers .swift text ⟨stop, true⟩) (waiting pending words)) ∧
      ∀ token, token.value = classKeyword → token.stop = pos → ∀ pending,
        Carries text stop next (afterClass text stop pending token)
          (waiting pending (.ofClass :: words)) := by
  induction reads with
  | @nil pos =>
      have here : ∀ pending, Carries text stop pos
          ((Walk.pending pos pending).headers .swift text ⟨stop, true⟩) pending :=
        fun pending => ⟨[], by simp, rfl⟩
      refine ⟨here, ?_⟩
      rintro before same rfl pending
      have declares : declarationWords.contains keyword.value = true := by
        rw [value]
        decide
      rw [afterClass_of_declares same ends declares]
      exact here (pending ++ [.ofClass])
  | @marker pos next token words read kind reads ih =>
      obtain ⟨later, -⟩ := ih ends
      have here : ∀ pending, Carries text stop next
          ((Walk.pending pos pending).headers .swift text ⟨stop, true⟩)
          (waiting pending (.marker token.value :: words)) := by
        intro pending
        rw [Walk.headers_pending_marker read kind]
        exact later (pending ++ [.marker token.value])
      refine ⟨here, ?_⟩
      rintro before same rfl pending
      rw [afterClass_of_marker same read kind, waiting]
      split
      · have kept := here (pending ++ [.ofClass])
        simpa [waiting] using kept
      · exact here []
  | @modifier pos next token words read modifier bare reads ih =>
      obtain ⟨later, -⟩ := ih ends
      have here : ∀ pending, Carries text stop next
          ((Walk.pending pos pending).headers .swift text ⟨stop, true⟩)
          (waiting pending (.modifier token.value :: words)) := by
        intro pending
        rw [Walk.headers_pending_modifier read modifier bare]
        exact later (pending ++ [.modifier token.value])
      refine ⟨here, ?_⟩
      rintro before same rfl pending
      obtain ⟨header, isClass, found⟩ := afterClass_of_modifier same read modifier pending
      rw [found]
      exact (later []).cons_class isClass
  | @ofClass pos next token words read kind value reads ih =>
      obtain ⟨later, afterwards⟩ := ih ends
      have here : ∀ pending, Carries text stop next
          ((Walk.pending pos pending).headers .swift text ⟨stop, true⟩)
          (waiting pending (.ofClass :: words)) := by
        intro pending
        rw [Walk.headers_pending_class read kind value]
        exact afterwards token value rfl pending
      refine ⟨here, ?_⟩
      rintro before same rfl pending
      have declares : declarationWords.contains token.value = true := by
        rw [value]
        decide
      rw [afterClass_of_declares same read declares]
      exact here (pending ++ [.ofClass])

end Walk

/-! ## Classes without a member -/

theorem callables_append_cons {dialect : Dialect} {text : List Char} {wholeClass : Bool}
    {stop : Nat} {member : Header}
    (ignored : dialect.callable? text wholeClass stop member = .ok none)
    (className : String) (taken : List String) (front back : List Header) :
    callables dialect text className wholeClass stop taken (front ++ member :: back) =
      callables dialect text className wholeClass stop taken (front ++ back) := by
  induction front generalizing taken with
  | nil =>
      rw [List.nil_append, List.nil_append, callables, ignored]
      split <;> rfl
  | cons first front ih => simp only [List.cons_append, callables, ih]

/-- The entity that a class becomes if these are the headers in its body. -/
def entityOf (dialect : Dialect) (text : List Char) (file : Option RawText) (header : Header)
    (members : List Header) : Extraction (Option Entity) :=
  match (opening text header.stop).body with
  | none => .found none
  | some start =>
    if !dialect.exposes header.name (opening text header.stop).words then .found none
    else
      (bodyStop text file header.name start).andThen fun stop =>
        (callables dialect text header.name (header.markers.contains dialect.classMarker) stop []
            members).map fun callables =>
          if callables.isEmpty then none else some ⟨header.name, callables, dialect.origin⟩

theorem entity?_eq_entityOf (dialect : Dialect) {text : List Char} (file : Option RawText)
    {header : Header} {start : Nat} (body : (opening text header.stop).body = some start) :
    entity? dialect text file header =
      entityOf dialect text file header
        (headers dialect text start (bodyEnd text start) true) := by
  have ends := bodyStop_result text file header.name start
  simp only [entity?, entityOf, body]
  split
  · rfl
  · simp only [Extraction.andThen, ends]

theorem entityOf_append_cons {dialect : Dialect} {text : List Char} {file : Option RawText}
    {header member : Header} {start : Nat} (body : (opening text header.stop).body = some start)
    (ignored : dialect.callable? text (header.markers.contains dialect.classMarker)
      (bodyEnd text start) member = .ok none)
    (front back : List Header) :
    entityOf dialect text file header (front ++ member :: back) =
      entityOf dialect text file header (front ++ back) := by
  have ends := bodyStop_result text file header.name start
  simp only [entityOf, body]
  split
  · rfl
  · simp only [Extraction.andThen, ends, callables_append_cons ignored]

/-! ## Members of the class -/

theorem typeLevel_any_iff (words : List PreludeWord) :
    Dialect.swift.typeLevel.any (words.filterMap PreludeWord.modifier?).contains = true ↔
      ∃ word ∈ words, word.isTypeLevel = true := by
  have level (word : PreludeWord) : word.isTypeLevel = true ↔
      ∃ modifier ∈ Dialect.swift.typeLevel, word.modifier? = some modifier := by
    cases word with
    | marker name => simp [PreludeWord.isTypeLevel, PreludeWord.modifier?]
    | modifier word => simp [PreludeWord.isTypeLevel, PreludeWord.modifier?]
    | ofClass => exact iff_of_true rfl ⟨classKeyword, by decide, rfl⟩
  simp only [List.any_eq_true, List.contains_iff_mem, List.mem_filterMap, level]
  constructor
  · rintro ⟨modifier, known, word, member, same⟩
    exact ⟨word, member, modifier, known, same⟩
  · rintro ⟨word, member, modifier, known, same⟩
    exact ⟨modifier, known, word, member, same⟩

/-- A member before whose keyword `static` or `class` still waits adds nothing to the entity of
its class, and any other is read as a member of instances. All words wait in the end if `class`
comes after the markers and the other modifiers. -/
theorem typeLevel_member_ignored {text : List Char} (file : Option RawText) {header : Header}
    {start pos : Nat} {words : List PreludeWord} {keyword name : Token}
    (body : (opening text header.stop).body = some start)
    (reached : Walk.Reaches .swift text ⟨bodyEnd text start, true⟩ (Walk.start start)
      (Walk.start pos))
    (reads : ReadsMember text (bodyEnd text start) pos words keyword name) :
    (∃ front member back,
      headers .swift text start (bodyEnd text start) true = front ++ member :: back ∧
      member.keyword = "func" ∧ member.name = name.value ∧ member.start = keyword.start ∧
      ((∃ word ∈ waiting [] words, word.isTypeLevel = true) →
        entity? .swift text file header = entityOf .swift text file header (front ++ back)) ∧
      (Dialect.swift.typeLevel.any member.modifiers.contains = true ↔
        ∃ word ∈ waiting [] words, word.isTypeLevel = true)) ∧
    (ClassLast words → waiting [] words = words) := by
  obtain ⟨⟨next, prelude, ends⟩, kind, value, named, word⟩ := reads
  refine ⟨?_, fun last => by rw [waiting_of_classLast last, List.nil_append]⟩
  obtain ⟨before, walked⟩ := reached.headers_eq
  obtain ⟨classes, -, carried⟩ := (prelude.carries ends value).1 []
  let member : Header :=
    ⟨"func", name.value, (waiting [] words).filterMap PreludeWord.marker?,
      (waiting [] words).filterMap PreludeWord.modifier?, keyword.start, name.stop⟩
  have declared : ∃ later,
      (Walk.pending next (waiting [] words)).headers .swift text ⟨bodyEnd text start, true⟩ =
        member :: later := by
    have noModifier : Dialect.swift.isModifier keyword = false := by
      have other : Dialect.swift.modifiers.contains "func" = false := by decide
      rw [Dialect.isModifier, value, other, Bool.and_false]
    have starts : Dialect.swift.isKeyword keyword = true := by
      simp [Dialect.isKeyword, kind, value, Dialect.swift]
    have noClass : ("func" == classKeyword) = false := by decide
    let extent : Extent := ⟨bodyEnd text start, true⟩
    refine ⟨Walk.headers .swift text extent ⟨name.stop, [], [], isQualifier name⟩, ?_⟩
    rw [@Walk.headers_of_some .swift text extent (Walk.pending next (waiting [] words)) keyword
      ends]
    simp [extent, Walk.pending, Walk.atToken, kind, noModifier, starts, Walk.atKeyword, named,
      value, noClass, word, member]
  obtain ⟨later, found⟩ := declared
  have split : headers .swift text start (bodyEnd text start) true =
      (before ++ classes) ++ member :: later := by
    have standing : Walk.start pos = Walk.pending pos [] := rfl
    rw [headers, walked, standing, carried, found, List.append_assoc]
  have level := typeLevel_any_iff (waiting [] words)
  refine ⟨before ++ classes, member, later, split, rfl, rfl, rfl, ?_, level⟩
  intro waits
  have ignored : Dialect.swift.callable? text (header.markers.contains Dialect.swift.classMarker)
      (bodyEnd text start) member = .ok none := by
    rw [Dialect.callable?, if_pos (level.mpr waits)]
  rw [entity?_eq_entityOf .swift file body, split, entityOf_append_cons body ignored]

/-- A static member, before which a class is declared by mistake. -/
def staticMember : List Char :=
  "class A \x7b class final @objc static func f(b: B) \x7b\x7d func g() \x7b\x7d \x7d".toList

theorem static_member_ignored :
    (opening staticMember 7).body = some 9 ∧
    ReadsMember staticMember (bodyEnd staticMember 9) 9
      [.ofClass, .modifier "final", .marker "objc", .modifier "static"]
      ⟨.word, "func", 35, 39⟩ ⟨.word, "f", 40, 41⟩ ∧
    ∃ front member back,
      headers .swift staticMember 9 (bodyEnd staticMember 9) true = front ++ member :: back ∧
      member.name = "f" ∧
      entity? .swift staticMember none ⟨"class", "A", [], [], 0, 7⟩ =
        entityOf .swift staticMember none ⟨"class", "A", [], [], 0, 7⟩ (front ++ back) := by
  obtain ⟨body, ends, first, second, third, fourth, keyword, named, noArguments, bare⟩ :
      (opening staticMember 7).body = some 9 ∧ bodyEnd staticMember 9 = 63 ∧
      nextToken staticMember 9 63 = some ⟨.word, "class", 10, 15⟩ ∧
      nextToken staticMember 15 63 = some ⟨.word, "final", 16, 21⟩ ∧
      nextToken staticMember 21 63 = some ⟨.marker, "objc", 22, 27⟩ ∧
      nextToken staticMember 27 63 = some ⟨.word, "static", 28, 34⟩ ∧
      nextToken staticMember 34 63 = some ⟨.word, "func", 35, 39⟩ ∧
      (nameToken staticMember 39 63).2 = some ⟨.word, "f", 40, 41⟩ ∧
      skipArguments staticMember 27 63 = 27 ∧
      skipArguments staticMember 21 63 = 21 ∧ skipArguments staticMember 34 63 = 34 := by
    decide +kernel
  have reads : ReadsMember staticMember (bodyEnd staticMember 9) 9
      [.ofClass, .modifier "final", .marker "objc", .modifier "static"]
      ⟨.word, "func", 35, 39⟩ ⟨.word, "f", 40, 41⟩ := by
    rw [ends]
    refine ⟨⟨34, ?_, keyword⟩, rfl, rfl, named, rfl⟩
    refine .ofClass first rfl rfl (.modifier second rfl bare.1 (.marker third rfl ?_))
    rw [noArguments]
    exact .modifier fourth rfl bare.2 .nil
  obtain ⟨⟨front, member, back, split, -, name, -, left, -⟩, -⟩ :=
    @typeLevel_member_ignored staticMember none ⟨"class", "A", [], [], 0, 7⟩ 9 9 _ _ _ body .refl
      reads
  exact ⟨body, reads, front, member, back, split, name,
    left ⟨.modifier "static", by decide, by decide⟩⟩

/-- A member of a marked class, of the class itself. -/
def finalMember : List Char :=
  "@objcMembers class A \x7b class final func f() \x7b\x7d \x7d".toList

/-- A modifier after the word `class` lets a member of the class be exposed. -/
theorem final_member_exposed :
    ReadsMember finalMember (bodyEnd finalMember 22) 22 [.ofClass, .modifier "final"]
      ⟨.word, "func", 35, 39⟩ ⟨.word, "f", 40, 41⟩ ∧
    (extract .swift finalMember none).result =
      .ok [⟨"A", [⟨.call, "f", "Void", []⟩], .ios⟩] := by
  obtain ⟨ends, first, second, keyword, named, bare, found⟩ :
      bodyEnd finalMember 22 = 47 ∧
      nextToken finalMember 22 47 = some ⟨.word, "class", 23, 28⟩ ∧
      nextToken finalMember 28 47 = some ⟨.word, "final", 29, 34⟩ ∧
      nextToken finalMember 34 47 = some ⟨.word, "func", 35, 39⟩ ∧
      (nameToken finalMember 39 47).2 = some ⟨.word, "f", 40, 41⟩ ∧
      skipArguments finalMember 34 47 = 34 ∧
      (extract .swift finalMember none).result =
        .ok [⟨"A", [⟨.call, "f", "Void", []⟩], .ios⟩] := by
    decide +kernel
  rw [ends]
  exact ⟨⟨⟨34, .ofClass first rfl rfl (.modifier second rfl bare .nil), keyword⟩, rfl, rfl, named,
    rfl⟩, found⟩

end DartBindings.Declaration
