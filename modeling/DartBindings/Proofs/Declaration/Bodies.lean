import DartBindings.Proofs.Declaration.Reaches
import DartBindings.Proofs.Declaration.Suffix
import DartBindings.Proofs.Source.BeforeBrace

/-!
Bodies. A shallow walk passes over a body as a whole, and what it has read up to there does not
depend on what the body holds. So one body may stand for another one.
-/

set_option autoImplicit false

namespace DartBindings.Declaration

open Source

/-! ## Up to the brace -/

section Before

variable {dialect : Dialect} {before more rest : List Char} {pos next : Nat} {token : Token}

/-- The token ends before the brace, or it is the brace. -/
def UpToBrace (before : List Char) (token : Token) : Prop :=
  token.stop ≤ before.length ∨ token.start = before.length

theorem length_lt_brace (before more : List Char) :
    before.length < (before ++ '\x7b' :: more).length := by
  simp

theorem le_of_skipGroup {text : List Char} {stop bound : Nat} {opening closing : Char}
    (skipped : skipGroup text pos stop opening closing = next) (inside : next ≤ bound)
    (window : bound < stop) : pos ≤ bound := by
  by_contra beyond
  rw [← skipped] at inside
  exact absurd (lt_skipGroup (Nat.lt_of_not_le beyond) window) (Nat.not_lt.mpr inside)

theorem skipGroup_brace {opening closing : Char} (delimits : Delimits opening closing)
    (noApostrophe : '\'' ∉ before)
    (skipped : skipGroup (before ++ '\x7b' :: more) pos (before ++ '\x7b' :: more).length
      opening closing = next)
    (inside : next ≤ before.length) (rest : List Char) :
    skipGroup (before ++ '\x7b' :: rest) pos (before ++ '\x7b' :: rest).length opening closing =
      next := by
  have bound := le_of_skipGroup skipped inside (length_lt_brace before more)
  have size := length_lt_brace before more
  have otherSize := length_lt_brace before rest
  unfold skipGroup findClosing at skipped ⊢
  rw [drop_append_brace bound] at skipped ⊢
  cases found : closingIndex (some opening) (some closing) 1
      (before.drop pos ++ '\x7b' :: more) with
  | none =>
      rw [found] at skipped
      dsimp only at skipped
      omega
  | some n =>
      rw [found] at skipped
      dsimp only at skipped
      have within : n < (before.drop pos).length := by
        rw [List.length_drop]
        omega
      have settled : Settled (before.drop pos) ('\x7b' :: more) :=
        .inr fun member => noApostrophe (List.mem_of_mem_drop member)
      have alike := readsAlike settled ('\x7b' :: rest)
      obtain ⟨first, last⟩ := delimits.significant
      rw [alike.closing first last found within]
      dsimp only
      omega

theorem skipArguments_brace (noApostrophe : '\'' ∉ before)
    (skipped :
      skipArguments (before ++ '\x7b' :: more) pos (before ++ '\x7b' :: more).length = next)
    (inside : next ≤ before.length) (rest : List Char) :
    skipArguments (before ++ '\x7b' :: rest) pos (before ++ '\x7b' :: rest).length = next := by
  have size := length_lt_brace before more
  have otherSize := length_lt_brace before rest
  have bound : pos ≤ before.length := by
    by_contra beyond
    rw [← skipped] at inside
    exact absurd (lt_skipArguments (Nat.lt_of_not_le beyond) size) (Nat.not_lt.mpr inside)
  have here (after : List Char) :
      (before ++ '\x7b' :: after)[pos]? = (before ++ ['\x7b'])[pos]? := by
    have split : before ++ '\x7b' :: after = (before ++ ['\x7b']) ++ after := by simp
    rw [split, List.getElem?_append_left]
    rw [List.length_append]
    exact Nat.lt_succ_of_le bound
  unfold skipArguments at skipped ⊢
  rw [here more] at skipped
  rw [here rest]
  have inWindow : decide (pos < (before ++ '\x7b' :: more).length) = true := by
    simpa using Nat.lt_of_le_of_lt bound size
  have inOther : decide (pos < (before ++ '\x7b' :: rest).length) = true := by
    simpa using Nat.lt_of_le_of_lt bound otherSize
  rw [inWindow] at skipped
  rw [inOther]
  split at skipped
  · rename_i opens
    rw [if_pos opens]
    exact skipGroup_brace .round noApostrophe skipped inside rest
  · rename_i none
    rw [if_neg none]
    exact skipped

/-- The token that was read last settles all that was read. -/
theorem nameToken_brace (noApostrophe : '\'' ∉ before) (noBacktick : backtick ∉ before)
    (read : nameToken (before ++ '\x7b' :: more) pos (before ++ '\x7b' :: more).length =
      (next, some token))
    (inside : UpToBrace before token) (rest : List Char) :
    nameToken (before ++ '\x7b' :: rest) pos (before ++ '\x7b' :: rest).length =
      (next, some token) := by
  have divides : IsBrace '\x7b' := .inl rfl
  unfold nameToken at read ⊢
  cases first : nextToken (before ++ '\x7b' :: more) pos (before ++ '\x7b' :: more).length with
  | none =>
      rw [first] at read
      cases read
  | some other =>
      rw [first] at read
      dsimp only at read
      split at read
      · rename_i group
        injection read with skipped named
        rw [skipped] at named
        have bound : next ≤ before.length := by
          have advances := nextToken_bounds named
          rcases inside with ends | starts <;> omega
        have ends := le_of_skipGroup skipped bound (length_lt_brace before more)
        rw [nextToken_append_brace divides noApostrophe noBacktick first (.inl ends)]
        have sameGroup := skipGroup_brace .angle noApostrophe skipped bound rest
        have sameName := @nextToken_append_brace _ _ _ rest _ _ divides noApostrophe noBacktick
          named inside
        dsimp only
        rw [if_pos group, sameGroup, sameName]
      · rename_i single
        injection read with same named
        cases named
        rw [nextToken_append_brace divides noApostrophe noBacktick first inside]
        dsimp only
        rw [if_neg single, same]

/-- The extent of a shallow walk over a whole text. -/
def Extent.members (text : List Char) : Extent := ⟨text.length, true⟩

theorem Walk.atKeyword_pos (walk : Walk) (text : List Char) (extent : Extent) (keyword : Token) :
    (walk.atKeyword text extent keyword).1.pos = (nameToken text keyword.stop extent.stop).1 ∨
      ∃ name, (nameToken text keyword.stop extent.stop).2 = some name ∧
        (walk.atKeyword text extent keyword).1.pos = name.stop := by
  unfold Walk.atKeyword
  generalize nameToken text keyword.stop extent.stop = reading
  obtain ⟨pos, name⟩ := reading
  cases name with
  | none => exact .inl rfl
  | some name =>
      dsimp only
      split
      · exact .inl rfl
      · split
        · exact .inr ⟨name, rfl, rfl⟩
        · exact .inl rfl

/-- The walk reads on after the keyword, so its name was read before the brace or at it. -/
theorem Walk.atKeyword_brace {walk : Walk} {keyword : Token} (noApostrophe : '\'' ∉ before)
    (noBacktick : backtick ∉ before)
    (bound : (walk.atKeyword (before ++ '\x7b' :: more) (.members (before ++ '\x7b' :: more))
      keyword).1.pos ≤ before.length)
    (read : nextToken (before ++ '\x7b' :: more) (walk.atKeyword (before ++ '\x7b' :: more)
      (.members (before ++ '\x7b' :: more)) keyword).1.pos (before ++ '\x7b' :: more).length =
      some token)
    (inside : UpToBrace before token) (rest : List Char) :
    walk.atKeyword (before ++ '\x7b' :: rest) (.members (before ++ '\x7b' :: rest)) keyword =
      walk.atKeyword (before ++ '\x7b' :: more) (.members (before ++ '\x7b' :: more)) keyword := by
  obtain ⟨name, named, upTo⟩ : ∃ name, (nameToken (before ++ '\x7b' :: more) keyword.stop
      (before ++ '\x7b' :: more).length).2 = some name ∧ UpToBrace before name := by
    rcases Walk.atKeyword_pos walk (before ++ '\x7b' :: more) (.members (before ++ '\x7b' :: more))
      keyword with peeked | ⟨name, named, taken⟩
    · rw [peeked, Extent.members, ← nameToken_snd] at read
      exact ⟨token, read, inside⟩
    · exact ⟨name, named, .inl (taken ▸ bound)⟩
  have same := nameToken_brace noApostrophe noBacktick (Prod.ext rfl named) upTo rest
  unfold Walk.atKeyword
  dsimp only [Extent.members]
  rw [same, named]

/-- A step that comes no further than the brace is the same whatever follows the brace. -/
theorem Walk.atToken_brace {walk : Walk} {first : Token} (noApostrophe : '\'' ∉ before)
    (noBacktick : backtick ∉ before)
    (bound : (walk.atToken dialect (before ++ '\x7b' :: more) (.members (before ++ '\x7b' :: more))
      first).1.pos ≤ before.length)
    (read : nextToken (before ++ '\x7b' :: more) (walk.atToken dialect (before ++ '\x7b' :: more)
      (.members (before ++ '\x7b' :: more)) first).1.pos (before ++ '\x7b' :: more).length =
      some token)
    (inside : UpToBrace before token) (rest : List Char) :
    walk.atToken dialect (before ++ '\x7b' :: rest) (.members (before ++ '\x7b' :: rest)) first =
      walk.atToken dialect (before ++ '\x7b' :: more) (.members (before ++ '\x7b' :: more))
        first := by
  unfold Walk.atToken at bound read ⊢
  split at bound
  · rename_i marker
    rw [if_pos marker, if_pos marker]
    have same := skipArguments_brace noApostrophe rfl bound rest
    dsimp only [Extent.members] at same ⊢
    rw [same]
  · rename_i noMarker
    rw [if_neg noMarker] at read
    rw [if_neg noMarker, if_neg noMarker]
    split at bound
    · rename_i modifier
      rw [if_pos modifier, if_pos modifier]
      have same := skipArguments_brace noApostrophe rfl bound rest
      dsimp only [Extent.members] at same ⊢
      rw [same]
    · rename_i noModifier
      rw [if_neg noModifier] at read
      rw [if_neg noModifier, if_neg noModifier]
      split at bound
      · rename_i keyword
        rw [if_pos keyword] at read
        rw [if_pos keyword, if_pos keyword]
        exact Walk.atKeyword_brace noApostrophe noBacktick bound read inside rest
      · rename_i noKeyword
        rw [if_neg noKeyword, if_neg noKeyword]
        dsimp only [Extent.members] at bound ⊢
        cases brace : first.value == "\x7b" with
        | false => rfl
        | true =>
            rw [brace] at bound
            have same := skipGroup_brace .curly noApostrophe rfl bound rest
            exact congrArg (fun pos => ((⟨pos, [], [], isQualifier first⟩ : Walk), none)) same

/-- A header ends no later than the walk has come when it finds it. -/
theorem Walk.atToken_stop {walk : Walk} {text : List Char} {extent : Extent} {header : Header}
    (found : (walk.atToken dialect text extent token).2 = some header) :
    header.stop ≤ (walk.atToken dialect text extent token).1.pos := by
  obtain ⟨name, -, -, step⟩ := Walk.atToken_found found
  rw [step] at found ⊢
  cases found
  exact Nat.le_refl _

/-- A walk that comes to the brace finds the same on its way there whatever follows it, and
nothing beyond it. -/
theorem Walk.Reaches.headers_brace {walk last : Walk}
    (reaches : Walk.Reaches dialect (before ++ '\x7b' :: more) (.members (before ++ '\x7b' :: more))
      walk last)
    (noApostrophe : '\'' ∉ before) (noBacktick : backtick ∉ before)
    (read : nextToken (before ++ '\x7b' :: more) last.pos (before ++ '\x7b' :: more).length =
      some token)
    (brace : token.start = before.length) (rest : List Char) :
    (∃ first, nextToken (before ++ '\x7b' :: more) walk.pos (before ++ '\x7b' :: more).length =
        some first ∧ UpToBrace before first) ∧
      ∃ found : List Header, (∀ header ∈ found, header.stop ≤ before.length) ∧
        walk.headers dialect (before ++ '\x7b' :: more) (.members (before ++ '\x7b' :: more)) =
          found ++
            last.headers dialect (before ++ '\x7b' :: more) (.members (before ++ '\x7b' :: more)) ∧
        walk.headers dialect (before ++ '\x7b' :: rest) (.members (before ++ '\x7b' :: rest)) =
          found ++
            last.headers dialect (before ++ '\x7b' :: rest)
              (.members (before ++ '\x7b' :: rest)) := by
  induction reaches with
  | refl =>
      exact ⟨⟨token, read, .inr brace⟩, [], fun _ none => absurd none List.not_mem_nil, rfl, rfl⟩
  | @step walk last first here _ ih =>
      obtain ⟨⟨next, there, upTo⟩, found, bounds, headers, otherHeaders⟩ := ih read
      have size := length_lt_brace before more
      have bound : (walk.atToken dialect (before ++ '\x7b' :: more)
          (.members (before ++ '\x7b' :: more)) first).1.pos ≤ before.length := by
        have advances := nextToken_bounds there
        rcases upTo with ends | starts <;> omega
      have ends : first.stop ≤ before.length := by
        by_contra beyond
        exact absurd (Walk.lt_atToken_of_lt dialect (Nat.lt_of_not_le beyond) size)
          (Nat.not_lt.mpr bound)
      have sameRead := @nextToken_append_brace _ _ _ rest _ _ (.inl rfl) noApostrophe noBacktick
        here (.inl ends)
      have sameStep := Walk.atToken_brace noApostrophe noBacktick bound there upTo rest
      refine ⟨⟨first, here, .inl ends⟩, (walk.atToken dialect (before ++ '\x7b' :: more)
        (.members (before ++ '\x7b' :: more)) first).2.toList ++ found, ?_, ?_, ?_⟩
      · intro header member
        rcases List.mem_append.mp member with now | later
        · exact Nat.le_trans (Walk.atToken_stop (Option.mem_toList.mp now)) bound
        · exact bounds header later
      · rw [Walk.headers_of_some here, headers, List.append_assoc]
      · rw [Walk.headers_of_some sameRead, sameStep, otherHeaders, List.append_assoc]

end Before

/-! ## Past the body -/

section Body

variable {dialect : Dialect} {before body after : List Char} {walk : Walk} {token : Token}

/-- A text with a body in braces. -/
def withBody (before body after : List Char) : List Char :=
  before ++ '\x7b' :: (body ++ '\x7d' :: after)

/-- The brace after the body is the one that closes it, whatever it follows. -/
def SelfContained (body : List Char) : Prop :=
  findClosing (body ++ ['\x7d']) 0 '\x7b' '\x7d' = .ok body.length

instance : DecidablePred SelfContained :=
  fun body => inferInstanceAs
    (Decidable (findClosing (body ++ ['\x7d']) 0 '\x7b' '\x7d' = .ok body.length))

theorem SelfContained.closingIndex (closed : SelfContained body) (after : List Char) :
    closingIndex (some '\x7b') (some '\x7d') 1 (body ++ '\x7d' :: after) = some body.length := by
  have alone : Source.closingIndex (some '\x7b') (some '\x7d') 1 (body ++ ['\x7d'] ++ []) =
      some body.length := by
    unfold SelfContained findClosing at closed
    rw [List.drop_zero] at closed
    rw [List.append_nil]
    split at closed
    · rename_i n found
      injection closed with same
      rw [found, ← same, Nat.zero_add]
    · cases closed
  have split : body ++ '\x7d' :: after = body ++ ['\x7d'] ++ after := by simp
  obtain ⟨first, last⟩ := Delimits.curly.significant
  rw [split]
  refine (readsAlike (.inl List.not_mem_nil) after).closing first last alone ?_
  simp

/-- At the brace, a shallow walk goes on after the body as if the text began there. -/
theorem Walk.headers_past_body (closed : SelfContained body)
    (read : nextToken (withBody before body after) walk.pos (withBody before body after).length =
      some token)
    (brace : token.start = before.length) :
    walk.headers dialect (withBody before body after) (.members (withBody before body after)) =
      ((Walk.start 0).headers dialect after (.members after)).map
        (Header.later (before.length + body.length + 2)) := by
  obtain ⟨c, rest, here, kind, value, stop⟩ := nextToken_some read
  rw [brace, withBody, List.drop_left] at here
  obtain ⟨rfl, rfl⟩ := List.cons.inj here
  have divides : IsBrace '\x7b' := .inl rfl
  rw [divides.lexemeAt] at kind value stop
  obtain rfl : token = ⟨.symbol, "\x7b", before.length, before.length + 1⟩ := by
    cases token
    simp_all
  have next : skipGroup (withBody before body after) (before.length + 1)
      (withBody before body after).length '\x7b' '\x7d' = before.length + body.length + 2 := by
    unfold skipGroup findClosing withBody
    rw [← List.drop_drop, List.drop_left, List.drop_succ_cons, List.drop_zero,
      closed.closingIndex after]
    simp only [List.length_append, List.length_cons]
    omega
  have step : (walk.atToken dialect (withBody before body after)
      (.members (withBody before body after)) ⟨.symbol, "\x7b", before.length, before.length + 1⟩) =
      (Walk.start (before.length + body.length + 2), none) := by
    simp [Walk.atToken, Dialect.isModifier, Dialect.isKeyword, isQualifier, Walk.start,
      Extent.members, next]
  have front : (before ++ '\x7b' :: (body ++ ['\x7d'])).length =
      before.length + body.length + 2 := by
    simp only [List.length_append, List.length_cons, List.length_nil]
    omega
  have split : withBody before body after = (before ++ '\x7b' :: (body ++ ['\x7d'])) ++ after := by
    simp [withBody]
  have suffix := Walk.headers_suffix dialect (before ++ '\x7b' :: (body ++ ['\x7d'])) after
    after.length true (Walk.start 0)
  rw [← split, front] at suffix
  have size : before.length + body.length + 2 + after.length =
      (withBody before body after).length := by
    rw [split, List.length_append, front]
  rw [size] at suffix
  rw [Walk.headers_of_some read, step]
  exact suffix

end Body

/-- The header in a text in which the body before it has changed its length. -/
def Header.moved (old new : Nat) (header : Header) : Header :=
  { header with start := header.start - old + new, stop := header.stop - old + new }

/-- One self-contained body may stand for another one: a shallow walk that comes to the brace of
the body finds the same headers, those after the body moved by as much as its length differs. -/
theorem headers_withBody {dialect : Dialect} {before first second after : List Char}
    (noApostrophe : '\'' ∉ before) (noBacktick : backtick ∉ before)
    (firstClosed : SelfContained first) (secondClosed : SelfContained second) {walk : Walk}
    {token : Token}
    (reaches : Walk.Reaches dialect (withBody before first after)
      (.members (withBody before first after)) (Walk.start 0) walk)
    (read : nextToken (withBody before first after) walk.pos (withBody before first after).length =
      some token)
    (brace : token.start = before.length) :
    ∃ found later : List Header,
      headers dialect (withBody before first after) 0 (withBody before first after).length true =
        found ++ later ∧
      headers dialect (withBody before second after) 0 (withBody before second after).length true =
        found ++ later.map (Header.moved first.length second.length) ∧
      (∀ header ∈ found, header.stop ≤ before.length) ∧
      ∀ header ∈ later, before.length + first.length + 2 ≤ header.start := by
  obtain ⟨-, found, bounds, headers, otherHeaders⟩ :=
    reaches.headers_brace noApostrophe noBacktick read brace (second ++ '\x7d' :: after)
  have otherRead : nextToken (withBody before second after) walk.pos
      (withBody before second after).length = some token :=
    nextToken_append_brace (.inl rfl) noApostrophe noBacktick read (.inr brace)
  refine ⟨found, ((Walk.start 0).headers dialect after (.members after)).map
    (Header.later (before.length + first.length + 2)), ?_, ?_, bounds, ?_⟩
  · rw [← Walk.headers_past_body firstClosed read brace]
    exact headers
  · have moves : Header.moved first.length second.length ∘
        Header.later (before.length + first.length + 2) =
          Header.later (before.length + second.length + 2) := by
      funext header
      simp only [Function.comp, Header.moved, Header.later]
      congr 1 <;> omega
    rw [List.map_map, moves, ← Walk.headers_past_body secondClosed otherRead brace]
    exact otherHeaders
  · intro header member
    obtain ⟨alone, -, rfl⟩ := List.mem_map.mp member
    exact Nat.le_add_right _ _

/-- The second body holds a brace in a literal, and a declaration. -/
theorem headers_withBody_function :
    let text := fun body : String => withBody "fun a() ".toList body.toList " fun b()".toList
    ∃ found later : List Header,
      headers .kotlin (text "run()") 0 (text "run()").length true = found ++ later ∧
      headers .kotlin (text "\"\x7d\"; fun c()") 0 (text "\"\x7d\"; fun c()").length true =
        found ++ later.map (Header.moved "run()".toList.length "\"\x7d\"; fun c()".toList.length) ∧
      (∀ header ∈ found, header.stop ≤ "fun a() ".toList.length) ∧
      ∀ header ∈ later, "fun a() ".toList.length + "run()".toList.length + 2 ≤ header.start := by
  intro text
  obtain ⟨noApostrophe, noBacktick, first, second, word, declared, opens, opened, closes, closed,
      brace⟩ :
      '\'' ∉ "fun a() ".toList ∧ backtick ∉ "fun a() ".toList ∧
      SelfContained "run()".toList ∧ SelfContained "\"\x7d\"; fun c()".toList ∧
      nextToken (text "run()") 0 (text "run()").length = some ⟨.word, "fun", 0, 3⟩ ∧
      ((Walk.start 0).atToken .kotlin (text "run()") (.members (text "run()"))
        ⟨.word, "fun", 0, 3⟩).1 = Walk.start 5 ∧
      nextToken (text "run()") 5 (text "run()").length = some ⟨.symbol, "(", 5, 6⟩ ∧
      ((Walk.start 5).atToken .kotlin (text "run()") (.members (text "run()"))
        ⟨.symbol, "(", 5, 6⟩).1 = Walk.start 6 ∧
      nextToken (text "run()") 6 (text "run()").length = some ⟨.symbol, ")", 6, 7⟩ ∧
      ((Walk.start 6).atToken .kotlin (text "run()") (.members (text "run()"))
        ⟨.symbol, ")", 6, 7⟩).1 = Walk.start 7 ∧
      nextToken (text "run()") 7 (text "run()").length = some ⟨.symbol, "\x7b", 8, 9⟩ := by
    decide +kernel
  have reaches : Walk.Reaches .kotlin (text "run()") (.members (text "run()")) (Walk.start 0)
      (Walk.start 7) :=
    .step word (declared ▸ .step opens (opened ▸ .step closes (closed ▸ .refl)))
  exact headers_withBody noApostrophe noBacktick first second reaches brace rfl

end DartBindings.Declaration
