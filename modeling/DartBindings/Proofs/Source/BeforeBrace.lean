import DartBindings.Proofs.Source.Locality

/-!
The tokens before a brace. A brace belongs to no other token, so what is read before it does not
depend on the text after it.
-/

set_option autoImplicit false

namespace DartBindings.Source

open Text

/-- The characters around a body. -/
def IsBrace (c : Char) : Prop :=
  c = '\x7b' ∨ c = '\x7d'

section Lexemes

variable {brace c : Char} {known more rest : List Char}

theorem IsBrace.solid (divides : IsBrace brace) (text : List Char) :
    triviaLength (brace :: text) = 0 := by
  rcases divides with rfl | rfl
  · exact triviaLength_eq_zero_iff.mpr ⟨by decide, commentLength_of_ne (by decide) text⟩
  · exact triviaLength_eq_zero_iff.mpr ⟨by decide, commentLength_of_ne (by decide) text⟩

theorem IsBrace.lexemeAt (divides : IsBrace brace) (room : Nat) (text : List Char) :
    lexemeAt room brace text = ⟨.symbol, [brace], 1⟩ := by
  rcases divides with rfl | rfl
  · rfl
  · rfl

theorem commentLength_append_brace
    (inside : commentLength (c :: (known ++ brace :: more)) ≤ (c :: known).length) :
    commentLength (c :: (known ++ brace :: rest)) =
      commentLength (c :: (known ++ brace :: more)) := by
  have split (after : List Char) :
      c :: (known ++ brace :: after) = (c :: known ++ [brace]) ++ after := by
    simp
  rw [split more] at inside ⊢
  rw [split rest]
  apply commentLength_append
  · rw [List.length_append]
    exact Nat.lt_succ_of_le inside
  · simp

theorem triviaLength_append_brace (divides : IsBrace brace)
    (inside : triviaLength (known ++ brace :: more) ≤ known.length) :
    triviaLength (known ++ brace :: rest) = triviaLength (known ++ brace :: more) := by
  induction size : known.length using Nat.strong_induction_on generalizing known with
  | _ length ih =>
    subst size
    match known with
    | [] => rw [List.nil_append, List.nil_append, divides.solid, divides.solid]
    | c :: known =>
        simp only [List.cons_append, List.length_cons] at inside ⊢
        cases blank : isBlank c with
        | true =>
            rw [triviaLength_blank blank] at inside ⊢
            rw [triviaLength_blank blank, ih known.length (Nat.lt_succ_self _) (by omega) rfl]
        | false =>
            have sameComment : commentLength (c :: (known ++ brace :: rest)) =
                commentLength (c :: (known ++ brace :: more)) := by
              apply commentLength_append_brace
              rw [triviaLength_cons, blank] at inside
              simp only [Bool.false_eq_true, ↓reduceIte] at inside
              split at inside
              · rename_i none
                rw [none]
                exact Nat.zero_le _
              · rename_i n comment
                rw [comment, List.length_cons]
                omega
            cases comment : commentLength (c :: (known ++ brace :: more)) with
            | zero =>
                rw [triviaLength_eq_zero_iff.mpr ⟨blank, comment⟩,
                  triviaLength_eq_zero_iff.mpr ⟨blank, sameComment.trans comment⟩]
            | succ n =>
                rw [triviaLength_comment comment] at inside ⊢
                rw [triviaLength_comment (sameComment.trans comment)]
                rw [List.drop_append_of_le_length (by omega)] at inside ⊢
                have shorter := @List.length_drop _ n known
                have less : (known.drop n).length < (c :: known).length := by
                  rw [List.length_cons]
                  omega
                rw [List.drop_append_of_le_length (by omega),
                  ih (known.drop n).length less (by omega) rfl]

theorem takeWhile_append_brace (divides : IsBrace brace) (known rest : List Char) :
    (known ++ brace :: rest).takeWhile isWordChar = known.takeWhile isWordChar := by
  have ends : isWordChar brace = false := by
    rcases divides with rfl | rfl <;> decide
  rw [List.takeWhile_append]
  split
  · rename_i whole
    rw [List.takeWhile_cons_of_neg (by simp [ends]), List.append_nil]
    exact ((List.takeWhile_prefix _).eq_of_length whole).symm
  · rfl

theorem symbolAt_append_brace (divides : IsBrace brace) (c : Char) (known more rest : List Char) :
    symbolAt c (known ++ brace :: rest) = symbolAt c (known ++ brace :: more) := by
  cases known with
  | nil =>
      have single (after : List Char) : symbolAt c (brace :: after) = ⟨.symbol, [c], 1⟩ := by
        unfold symbolAt
        split
        · rename_i same
          cases same
          rcases divides with other | other <;> cases other
        · rename_i same
          cases same
          rcases divides with other | other <;> cases other
        · rfl
      rw [List.nil_append, List.nil_append, single, single]
  | cons d known => rw [symbolAt_cons, symbolAt_cons]

theorem tailLength_append_brace (divides : IsBrace brace) (noApostrophe : '\'' ∉ c :: known)
    (within : tailLength c (known ++ brace :: more) ≤ known.length) (rest : List Char) :
    tailLength c (known ++ brace :: rest) = tailLength c (known ++ brace :: more) := by
  have split (after : List Char) : known ++ brace :: after = (known ++ [brace]) ++ after := by
    simp
  have free : '\'' ∉ known ++ [brace] := by
    have other : brace ≠ '\'' := by
      rcases divides with rfl | rfl <;> decide
    simp only [List.mem_cons, not_or] at noApostrophe
    simp [noApostrophe.2, other.symm]
  rw [split more] at within ⊢
  rw [split rest]
  apply tailLength_append
  · intro n
    exact readsAlike (.inr fun member => free (List.mem_of_mem_drop member)) rest
  · rintro rfl
    exact absurd List.mem_cons_self noApostrophe
  · rw [List.length_append]
    exact Nat.lt_succ_of_le within

/-- The token that starts here is read alike whatever follows the brace, if it ends before it. -/
theorem lexemeAt_append_brace (divides : IsBrace brace) (noApostrophe : '\'' ∉ c :: known)
    (noBacktick : c ≠ backtick)
    (inside : (lexemeAt ((known ++ brace :: more).length + 1) c (known ++ brace :: more)).length ≤
      (c :: known).length) (rest : List Char) :
    lexemeAt ((known ++ brace :: rest).length + 1) c (known ++ brace :: rest) =
      lexemeAt ((known ++ brace :: more).length + 1) c (known ++ brace :: more) := by
  cases quote : isQuote c with
  | true =>
      rw [lexemeAt_quote _ _ quote] at inside ⊢
      rw [lexemeAt_quote _ _ quote]
      simp only [List.length_append, List.length_cons] at inside ⊢
      have within : tailLength c (known ++ brace :: more) ≤ known.length := by omega
      have same := tailLength_append_brace divides noApostrophe within rest
      have sameTake (after : List Char) :
          (c :: (known ++ brace :: after)).take (tailLength c (known ++ brace :: more) + 1) =
            (c :: known).take (tailLength c (known ++ brace :: more) + 1) := by
        rw [← List.cons_append, List.take_append_of_le_length (Nat.succ_le_succ within)]
      rw [same, Nat.min_eq_left (by omega), Nat.min_eq_left (by omega), sameTake more,
        sameTake rest]
  | false =>
      have fits (text : List Char) : (text.takeWhile isWordChar).length ≤ text.length :=
        (List.takeWhile_prefix _).length_le
      unfold lexemeAt
      simp only [quote, noBacktick, Bool.false_eq_true, ↓reduceIte, Nat.add_sub_cancel,
        wordRun_of_fits (fits _), takeWhile_append_brace divides,
        symbolAt_append_brace divides c known more rest]

end Lexemes

/-! ## Reading -/

section Reading

variable {brace : Char} {known more rest : List Char} {pos : Nat} {token : Token}

theorem drop_append_brace (bound : pos ≤ known.length) (after : List Char) :
    (known ++ brace :: after).drop pos = known.drop pos ++ brace :: after :=
  List.drop_append_of_le_length bound

/-- Before a brace, or at it, tokens are read alike whatever follows it. -/
theorem nextToken_append_brace (divides : IsBrace brace) (noApostrophe : '\'' ∉ known)
    (noBacktick : backtick ∉ known)
    (read : nextToken (known ++ brace :: more) pos (known ++ brace :: more).length = some token)
    (inside : token.stop ≤ known.length ∨ token.start = known.length) :
    nextToken (known ++ brace :: rest) pos (known ++ brace :: rest).length = some token := by
  have advances := nextToken_bounds read
  have start := nextToken_start read
  have bound : token.start ≤ known.length := by omega
  rw [drop_append_brace (by omega)] at start
  have sameStart : triviaLength ((known ++ brace :: rest).drop pos) =
      triviaLength (known.drop pos ++ brace :: more) := by
    rw [drop_append_brace (by omega)]
    apply triviaLength_append_brace divides
    rw [List.length_drop]
    omega
  rw [nextToken_triviaLength, sameStart, ← start]
  obtain ⟨c, after, here, solid, kind, value, stop⟩ := nextToken_some_whole read
  rw [drop_append_brace bound] at here
  have there := @drop_append_brace brace known token.start bound rest
  cases front : known.drop token.start with
  | nil =>
      rw [front, List.nil_append] at here there
      obtain ⟨rfl, rfl⟩ := List.cons.inj here
      rw [divides.lexemeAt] at kind value stop
      rw [nextToken_solid_whole there (divides.solid rest), divides.lexemeAt, ← kind, ← value,
        ← stop]
  | cons d front' =>
      have before : token.start < known.length := by
        by_contra beyond
        rw [List.drop_eq_nil_of_le (Nat.le_of_not_lt beyond)] at front
        cases front
      have size := @List.length_drop _ token.start known
      rw [front, List.length_cons] at size
      rw [front, List.cons_append] at here there
      obtain ⟨rfl, rfl⟩ := List.cons.inj here
      have within : ∀ b ∈ d :: front', b ∈ known :=
        fun b member => List.mem_of_mem_drop (front ▸ member)
      have ends : (lexemeAt ((front' ++ brace :: more).length + 1) d
          (front' ++ brace :: more)).length ≤ (d :: front').length := by
        rw [List.length_cons]
        omega
      have same := lexemeAt_append_brace divides (fun member => noApostrophe (within _ member))
        (fun same => noBacktick (same ▸ within d List.mem_cons_self)) ends rest
      have starts : triviaLength (d :: front' ++ brace :: more) ≤ (d :: front').length := by
        rw [List.cons_append, solid]
        exact Nat.zero_le _
      have stillSolid : triviaLength (d :: front' ++ brace :: rest) = 0 := by
        rw [triviaLength_append_brace divides starts, List.cons_append, solid]
      rw [nextToken_solid_whole there stillSolid, same, ← kind, ← value, ← stop]

end Reading

end DartBindings.Source
