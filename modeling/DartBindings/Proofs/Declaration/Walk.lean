import DartBindings.Declaration.Signature
import DartBindings.Proofs.Source.Closing
import DartBindings.Proofs.Source.Token

/-!
The steps of a walk, and of the search for a return type, by what the window reads where they
stand.
-/

set_option autoImplicit false

namespace DartBindings.Declaration

open Text Source

variable {dialect : Dialect} {text after : List Char} {extent : Extent}

/-! ## One token -/

theorem Walk.headers_of_none {walk : Walk}
    (read : nextToken text walk.pos extent.stop = none) :
    walk.headers dialect text extent = [] := by
  rw [Walk.headers.eq_def]
  split
  · rfl
  · rename_i token other
    rw [read] at other
    cases other

theorem Walk.headers_of_some {walk : Walk} {token : Token}
    (read : nextToken text walk.pos extent.stop = some token) :
    walk.headers dialect text extent =
      (walk.atToken dialect text extent token).2.toList ++
        (walk.atToken dialect text extent token).1.headers dialect text extent := by
  rw [Walk.headers.eq_def]
  split
  · rename_i other
    rw [read] at other
    cases other
  · rename_i found other
    rw [read] at other
    cases other
    rfl

/-- A walk may as well stand after the blanks that it stands before. -/
theorem Walk.headers_blanks {blanks : List Char} (blank : ∀ c ∈ blanks, isBlank c = true)
    {pos : Nat} (window : Window text extent.stop pos (blanks ++ after))
    (markers modifiers : List String) (qualified : Bool) :
    Walk.headers dialect text extent ⟨pos, markers, modifiers, qualified⟩ =
      Walk.headers dialect text extent ⟨pos + blanks.length, markers, modifiers, qualified⟩ := by
  have same := nextToken_blanks blank window
  cases read : nextToken text (pos + blanks.length) extent.stop with
  | none =>
      rw [read] at same
      rw [Walk.headers_of_none same, Walk.headers_of_none read]
  | some token =>
      rw [read] at same
      have before : Walk.headers dialect text extent ⟨pos, markers, modifiers, qualified⟩ = _ :=
        Walk.headers_of_some same
      have beyond : Walk.headers dialect text extent
          ⟨pos + blanks.length, markers, modifiers, qualified⟩ = _ :=
        Walk.headers_of_some read
      rw [before, beyond]
      rfl

theorem Walk.headers_blank {c : Char} (blank : isBlank c = true) {pos : Nat}
    (window : Window text extent.stop pos (c :: after)) (markers modifiers : List String)
    (qualified : Bool) :
    Walk.headers dialect text extent ⟨pos, markers, modifiers, qualified⟩ =
      Walk.headers dialect text extent ⟨pos + 1, markers, modifiers, qualified⟩ := by
  have single : ∀ d ∈ [c], isBlank d = true := by simpa using blank
  exact Walk.headers_blanks single window markers modifiers qualified

theorem ne_of_isWord {word other : String} (named : IsWord word.toList) {c : Char}
    (inside : c ∈ other.toList) (symbol : isWordChar c = false) : word ≠ other := by
  rintro rfl
  rw [named.chars c inside] at symbol
  cases symbol

theorem isQualifier_word {word : String} (named : IsWord word.toList) (kind : TokenKind)
    (start stop : Nat) : isQualifier ⟨kind, word, start, stop⟩ = false := by
  have colons : word ≠ "::" := ne_of_isWord named (c := ':') (by decide) (by decide)
  have fullStop : word ≠ "." := ne_of_isWord named (c := '.') (by decide) (by decide)
  simp [isQualifier, colons, fullStop]

theorem skipArguments_of_window {stop pos : Nat} {rest : List Char}
    (window : Window text stop pos rest) (noArguments : ∀ c ∈ rest.head?, c ≠ '(') :
    skipArguments text pos stop = pos := by
  obtain ⟨⟨tail, here⟩, ends⟩ := window
  unfold skipArguments
  cases rest with
  | nil =>
      have ended : ¬ pos < stop := by
        rw [List.length_nil] at ends
        omega
      simp [ended]
  | cons c rest =>
      have other := noArguments c rfl
      have next : text[pos]? = some c := by
        rw [← List.head?_drop, here]
        rfl
      simp [next, other]

/-- The token that may be a name is the next one after the type parameters. -/
theorem nameToken_snd (text : List Char) (pos stop : Nat) :
    (nameToken text pos stop).2 = nextToken text (nameToken text pos stop).1 stop := by
  unfold nameToken
  split
  · rename_i token read
    split
    · rfl
    · exact read.symm
  · rename_i ended
    exact ended.symm

/-! ## Words and markers -/

section Words

variable {word : String} {c : Char} {pos : Nat}

theorem endsWord_of_isBlank (blank : isBlank c = true) (rest : List Char) :
    EndsWord (c :: rest) :=
  endsWord_cons (isWordChar_of_isBlank blank) rest

theorem nextToken_name (named : IsWord word.toList) (ends : EndsWord after) {stop : Nat}
    (window : Window text stop pos (word.toList ++ after)) :
    nextToken text pos stop = some ⟨.word, word, pos, pos + word.length⟩ := by
  have read := nextToken_word named ends window
  rwa [String.ofList_toList, String.length_toList] at read

theorem skipArguments_of_isBlank (blank : isBlank c = true) {stop : Nat}
    (window : Window text stop pos (c :: after)) : skipArguments text pos stop = pos := by
  apply skipArguments_of_window window
  intro d first
  rw [List.head?_cons, Option.mem_some_iff] at first
  exact first ▸ ne_of_class blank (by decide)

theorem Walk.headers_marker (named : IsWord word.toList) (blank : isBlank c = true)
    (window : Window text extent.stop pos ('@' :: (word.toList ++ c :: after)))
    (markers modifiers : List String) (qualified : Bool) :
    Walk.headers dialect text extent ⟨pos, markers, modifiers, qualified⟩ =
      Walk.headers dialect text extent
        ⟨pos + (word.length + 1), markers ++ [word], modifiers, false⟩ := by
  have rest : Window text extent.stop (pos + (word.length + 1)) (c :: after) := by
    rw [← String.length_toList]
    exact window.of_append ('@' :: word.toList)
  have read := nextToken_marker named (endsWord_of_isBlank blank after) window
  rw [String.ofList_toList, String.length_toList] at read
  rw [Walk.headers_of_some read]
  simp only [Walk.atToken, skipArguments_of_isBlank blank rest, isQualifier_word named]
  rfl

theorem Walk.headers_modifier (named : IsWord word.toList)
    (modifier : dialect.modifiers.contains word = true) (blank : isBlank c = true)
    (window : Window text extent.stop pos (word.toList ++ c :: after))
    (markers modifiers : List String) (qualified : Bool) :
    Walk.headers dialect text extent ⟨pos, markers, modifiers, qualified⟩ =
      Walk.headers dialect text extent
        ⟨pos + word.length, markers, modifiers ++ [word], false⟩ := by
  have rest := window.of_append word.toList
  rw [String.length_toList] at rest
  rw [Walk.headers_of_some (nextToken_name named (endsWord_of_isBlank blank after) window)]
  simp only [Walk.atToken, Dialect.isModifier, modifier, skipArguments_of_isBlank blank rest,
    isQualifier_word named]
  rfl

end Words

/-! ## Declarations -/

/-- The words that start a class or a member in both dialects. -/
structure Dialect.Starts (dialect : Dialect) (keyword : String) : Prop where
  word : IsWord keyword.toList
  opens : keyword = classKeyword ∨ keyword = dialect.memberKeyword
  noModifier : keyword ∉ dialect.modifiers

theorem Walk.headers_keyword {keyword : String} (starts : dialect.Starts keyword) {pos : Nat}
    (window : Window text extent.stop pos (keyword.toList ++ ' ' :: after))
    (markers modifiers : List String) :
    Walk.headers dialect text extent ⟨pos, markers, modifiers, false⟩ =
      (Walk.atKeyword ⟨pos, markers, modifiers, false⟩ text extent
        ⟨.word, keyword, pos, pos + keyword.length⟩).2.toList ++
      (Walk.atKeyword ⟨pos, markers, modifiers, false⟩ text extent
        ⟨.word, keyword, pos, pos + keyword.length⟩).1.headers dialect text extent := by
  have read := nextToken_name starts.word (endsWord_of_isBlank (by decide) _) window
  have word : dialect.isKeyword ⟨.word, keyword, pos, pos + keyword.length⟩ = true := by
    rcases starts.opens with rfl | rfl <;> simp [Dialect.isKeyword]
  rw [Walk.headers_of_some read]
  simp [Walk.atToken, Dialect.isModifier, starts.noModifier, word]

/-- A walk takes the word that it reads after a keyword for a name. -/
theorem Walk.atKeyword_of_word {keyword name : Token}
    (read : (nameToken text keyword.stop extent.stop).2 = some name) (word : name.kind = .word)
    (noClass : keyword.value ≠ classKeyword) (walk : Walk) :
    walk.atKeyword text extent keyword =
      (⟨name.stop, [], [], isQualifier name⟩,
        some ⟨keyword.value, name.value, walk.markers, walk.modifiers, keyword.start,
          name.stop⟩) := by
  unfold Walk.atKeyword
  generalize nameToken text keyword.stop extent.stop = found at read
  obtain ⟨pos, candidate⟩ := found
  cases read
  simp [word, noClass]

/-- What is found at a keyword has the next word for its name, and the walk goes on behind it. -/
theorem Walk.atKeyword_found {walk : Walk} {keyword : Token} {header : Header}
    (found : (walk.atKeyword text extent keyword).2 = some header) :
    ∃ name, (nameToken text keyword.stop extent.stop).2 = some name ∧ name.kind = .word ∧
      walk.atKeyword text extent keyword =
        (⟨name.stop, [], [], isQualifier name⟩,
          some ⟨keyword.value, name.value, walk.markers, walk.modifiers, keyword.start,
            name.stop⟩) := by
  unfold Walk.atKeyword at found ⊢
  generalize nameToken text keyword.stop extent.stop = reading at found ⊢
  obtain ⟨pos, name⟩ := reading
  cases name with
  | none => cases found
  | some token =>
      dsimp only at found ⊢
      split at found
      · cases found
      · rename_i noClass
        split at found
        · rename_i word
          exact ⟨token, rfl, by simpa using word, by rw [if_neg noClass, if_pos word]⟩
        · cases found

/-- A step finds a header at a keyword only. -/
theorem Walk.atToken_found {walk : Walk} {token : Token} {header : Header}
    (found : (walk.atToken dialect text extent token).2 = some header) :
    ∃ name, (nameToken text token.stop extent.stop).2 = some name ∧ name.kind = .word ∧
      walk.atToken dialect text extent token =
        (⟨name.stop, [], [], isQualifier name⟩,
          some ⟨token.value, name.value, walk.markers, walk.modifiers, token.start,
            name.stop⟩) := by
  unfold Walk.atToken at found ⊢
  split at found
  · cases found
  · rename_i noMarker
    split at found
    · cases found
    · rename_i noModifier
      split at found
      · rename_i keyword
        rw [if_neg noMarker, if_neg noModifier, if_pos keyword]
        exact Walk.atKeyword_found found
      · split at found <;> cases found

theorem Walk.headers_declaration {keyword name : String} (starts : dialect.Starts keyword)
    (named : IsWord name.toList) (free : name ∉ declarationWords) (ends : EndsWord after)
    {pos : Nat}
    (window : Window text extent.stop pos (keyword.toList ++ ' ' :: (name.toList ++ after)))
    (markers modifiers : List String) :
    Walk.headers dialect text extent ⟨pos, markers, modifiers, false⟩ =
      ⟨keyword, name, markers, modifiers, pos, pos + keyword.length + 1 + name.length⟩ ::
        (Walk.start (pos + keyword.length + 1 + name.length)).headers dialect text extent := by
  have beyond := window.of_append keyword.toList
  rw [String.length_toList] at beyond
  have readName := nextToken_name named ends beyond.tail
  rw [← nextToken_blank (by decide) beyond] at readName
  have noGroup : name ≠ "<" := ne_of_isWord named (c := '<') (by decide) (by decide)
  rw [Walk.headers_keyword starts window]
  simp [Walk.atKeyword, nameToken, readName, noGroup, free, isQualifier_word named, Walk.start]

/-! ## Braces -/

section Braces

variable {pos : Nat}

theorem Walk.headers_brace {c : Char} (brace : c = '\x7d' ∨ c = '\x7b' ∧ extent.shallow = false)
    (window : Window text extent.stop pos (c :: after))
    (markers modifiers : List String) (qualified : Bool) :
    Walk.headers dialect text extent ⟨pos, markers, modifiers, qualified⟩ =
      (Walk.start (pos + 1)).headers dialect text extent := by
  rcases brace with rfl | ⟨rfl, deep⟩
  · rw [Walk.headers_of_some (nextToken_single (by decide) (by decide) (by decide) window)]
    simp [Walk.atToken, Dialect.isModifier, Dialect.isKeyword, isQualifier, Walk.start]
  · rw [Walk.headers_of_some (nextToken_single (by decide) (by decide) (by decide) window)]
    simp [Walk.atToken, Dialect.isModifier, Dialect.isKeyword, isQualifier, Walk.start, deep]

theorem closingIndex_at_closing (text : List Char) :
    closingIndex (some '\x7b') (some '\x7d') 1 ('\x7d' :: text) = some 0 := by
  rw [closingIndex_closing (by decide) (commentLength_of_ne (by decide) _) (by decide)]
  rfl

theorem Walk.headers_emptyBody {walk : Walk} {n : Nat}
    (read : nextToken text walk.pos extent.stop = some ⟨.symbol, "\x7b", n, n + 1⟩)
    (body : Window text extent.stop (n + 1) ('\x7d' :: after)) :
    walk.headers dialect text extent = (Walk.start (n + 2)).headers dialect text extent := by
  rw [Walk.headers_of_some read]
  cases mode : extent.shallow with
  | false =>
      have closed := @Walk.headers_brace dialect _ _ _ _ _ (.inl rfl) body [] [] false
      simpa [Walk.atToken, Dialect.isModifier, Dialect.isKeyword, isQualifier, mode] using closed
  | true =>
      have skipped : skipGroup text (n + 1) extent.stop '\x7b' '\x7d' = n + 2 := by
        obtain ⟨⟨tail, here⟩, size⟩ := body
        rw [List.length_cons] at size
        rw [List.cons_append] at here
        simp only [skipGroup, findClosing, here, closingIndex_at_closing]
        omega
      simp [Walk.atToken, Dialect.isModifier, Dialect.isKeyword, isQualifier, Walk.start, mode,
        skipped]

end Braces

/-! ## Effects -/

section Effects

variable {effects : List String} {pos stop : Nat} {token : Token}

theorem afterEffects_of_none (read : nextToken text pos stop = none) :
    afterEffects effects text pos stop = none := by
  rw [afterEffects.eq_def]
  split
  · rfl
  · rename_i token other
    rw [read] at other
    cases other

theorem afterEffects_of_read (read : nextToken text pos stop = some token) :
    afterEffects effects text pos stop =
      if effects.contains token.value then afterEffects effects text token.stop stop
      else some token := by
  rw [afterEffects.eq_def]
  split
  · rename_i other
    rw [read] at other
    cases other
  · rename_i found other
    rw [read] at other
    cases other
    rfl

end Effects

end DartBindings.Declaration
