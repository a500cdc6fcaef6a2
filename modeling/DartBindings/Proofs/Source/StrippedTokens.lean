import DartBindings.Proofs.Source.Bare
import DartBindings.Proofs.Source.ClosedLiteral
import DartBindings.Proofs.Source.Gap

/-!
Texts without their comments. Where no names are quoted and no apostrophe occurs, taking the
comments out of a text keeps its tokens, and only blanks are left between them. In particular no
two parts of the text that a comment held apart make another token, literal or comment.
-/

set_option autoImplicit false

namespace DartBindings.Source

open Text

/-- A text of tokens with these spellings, with blanks before, between and after them. The last
token may be a literal that is never closed. -/
inductive SpacedTokens : List Char → List Spelling → Prop where
  | nil : SpacedTokens [] []
  | blank {c text spellings} : isBlank c = true → SpacedTokens text spellings →
      SpacedTokens (c :: text) spellings
  | token {token text spelling spellings} : Lexed (Starts text) token spelling →
      SpacedTokens text spellings → SpacedTokens (token ++ text) (spelling :: spellings)
  | unclosed {quote rest} : isQuote quote = true → rest.length ≤ tailLength quote rest →
      SpacedTokens (quote :: rest) [(.literal, String.ofList (quote :: rest))]

/-- From `pos` on, the text is blank outside of these tokens. -/
def BlankOutside (text : List Char) (pos : Nat) (tokens : List Token) : Prop :=
  ∀ offset c, pos ≤ offset → text[offset]? = some c →
    (∀ token ∈ tokens, offset < token.start ∨ token.stop ≤ offset) → isBlank c = true

section SpacedTokens

variable {text : List Char} {spellings : List Spelling}

theorem fits_self (text : List Char) : Fits (Starts text) text :=
  fun _ first => first

theorem SpacedTokens.blanks {blanks : List Char} (blank : ∀ c ∈ blanks, isBlank c = true)
    (spaced : SpacedTokens text spellings) : SpacedTokens (blanks ++ text) spellings := by
  induction blanks with
  | nil => exact spaced
  | cons c blanks ih =>
      exact .blank (blank c List.mem_cons_self)
        (ih fun d member => blank d (List.mem_cons_of_mem c member))

/-- There is no comment to take out. -/
theorem SpacedTokens.stripComments_eq (spaced : SpacedTokens text spellings) :
    stripComments text = text := by
  induction spaced with
  | nil => exact stripComments_nil
  | @blank c text _ blank _ ih =>
      rw [stripComments_char (isQuote_of_isBlank blank) (commentLength_of_isBlank blank text), ih]
  | @token token text _ _ lexed _ ih => rw [lexed.stripComments (fits_self text), ih]
  | unclosed quote whole =>
      rw [stripComments_literal quote, List.take_of_length_le whole, List.drop_of_length_le whole,
        stripComments_nil, List.append_nil]

end SpacedTokens

section Reading

variable {source : List Char} {pos : Nat} {token : Token}

theorem blankOutside_nil (ended : source.drop pos = []) (tokens : List Token) :
    BlankOutside source pos tokens := by
  intro offset c after here
  have inside := (List.getElem?_eq_some_iff.mp here).1
  have bound := List.drop_eq_nil_iff.mp ended
  omega

theorem blankOutside_cons {tokens : List Token} (start : token.start = pos)
    (later : BlankOutside source token.stop tokens) :
    BlankOutside source pos (token :: tokens) := by
  intro offset c after here outside
  have behind : token.stop ≤ offset := by
    cases outside token List.mem_cons_self with
    | inl before => omega
    | inr behind => exact behind
  exact later offset c behind here fun other member =>
    outside other (List.mem_cons_of_mem token member)

/-- A literal that is never closed is the last token. -/
theorem tokens_unclosed {quote : Char} {rest : List Char} (here : source.drop pos = quote :: rest)
    (quoted : isQuote quote = true) (whole : rest.length ≤ tailLength quote rest) :
    tokens source pos source.length =
      [⟨.literal, String.ofList (quote :: rest), pos, pos + (quote :: rest).length⟩] := by
  have takes : min (tailLength quote rest + 1) (rest.length + 1) = (quote :: rest).length :=
    Nat.min_eq_right (Nat.succ_le_succ whole)
  have read := nextToken_solid_whole here (triviaLength_quote quoted rest)
  rw [lexemeAt_quote _ _ quoted, takes, List.take_length] at read
  have ended : source.drop (pos + (quote :: rest).length) = [] := by
    rw [← List.drop_drop, here, List.drop_length]
  rw [tokens_of_some read, tokens_of_none (nextToken_of_drop_nil ended _)]

/-- A spaced text is read as its spellings, with blanks outside of the tokens. -/
theorem SpacedTokens.reads {text : List Char} {spellings : List Spelling}
    (spaced : SpacedTokens text spellings) (here : source.drop pos = text) :
    (tokens source pos source.length).map Token.spelling = spellings ∧
      BlankOutside source pos (tokens source pos source.length) := by
  induction spaced generalizing pos with
  | nil =>
      rw [tokens_of_none (nextToken_of_drop_nil here _)]
      exact ⟨rfl, blankOutside_nil here []⟩
  | @blank c text _ blank _ ih =>
      have next : source.drop (pos + 1) = text := by
        rw [← List.drop_drop, here, List.drop_one, List.tail_cons]
      have skip : tokens source pos source.length = tokens source (pos + 1) source.length := by
        apply tokens_skip
        apply nextToken_skip
        rw [here, next, triviaLength_blank blank]
      obtain ⟨same, outside⟩ := ih next
      rw [skip]
      refine ⟨same, ?_⟩
      intro offset d after there others
      by_cases first : offset = pos
      · rw [first, ← List.head?_drop, here] at there
        cases there
        exact blank
      · exact outside offset d (by omega) there others
  | @token token text spelling _ lexed _ ih =>
      have size := congrArg List.length here
      rw [List.length_drop, List.length_append] at size
      have positive := List.length_pos_iff.mpr lexed.nonempty
      have alone : Lexed (First (Starts text) []) token spelling := lexed
      have inside : pos + ([] : List Char).length + token.length ≤ source.length := by
        rw [List.length_nil]
        omega
      have read := alone.nextToken .nil (by simpa using here) (fits_self text) inside
      have next : source.drop (pos + token.length) = text := by
        rw [← List.drop_drop, here, List.drop_left]
      obtain ⟨same, outside⟩ := ih next
      rw [tokens_of_some read, List.map_cons]
      exact ⟨congrArg _ same, blankOutside_cons rfl outside⟩
  | @unclosed quote rest quoted whole =>
      have ended : source.drop (pos + (quote :: rest).length) = [] := by
        rw [← List.drop_drop, here, List.drop_length]
      rw [tokens_unclosed here quoted whole]
      exact ⟨rfl, blankOutside_cons rfl (blankOutside_nil ended [])⟩

end Reading

/-! ## Taking comments out -/

section StripComments

variable {text : List Char}

/-- What comes after a token still starts with the same character, or with a blank. -/
theorem fits_stripComments (text : List Char) :
    Fits (OrBlank (Starts text)) (stripComments text) := by
  intro c first
  obtain ⟨blanks, blank, none, same⟩ := stripComments_start text
  rw [same] at first
  cases blanks with
  | nil =>
      rw [none rfl, List.drop_zero, List.nil_append, head?_stripComments (none rfl)] at first
      exact .inl first
  | cons d blanks =>
      cases first
      exact .inr (blank c List.mem_cons_self)

/-- A token keeps its spelling, and what comes after it is taken on its own. -/
theorem SpacedTokens.of_lexed {token after : List Char} {spelling : Spelling}
    {spellings : List Spelling} (lexed : Lexed (Starts after) token spelling)
    (later : SpacedTokens (stripComments after) spellings) :
    SpacedTokens (stripComments (token ++ after)) (spelling :: spellings) := by
  rw [lexed.stripComments (fits_self after)]
  exact .token (lexed.orBlank.mono (fits_stripComments after)) later

/-- The first token of a text depends on what comes after it only through the next character,
unless it is a literal that takes the rest of the text. -/
theorem lexed_or_unclosed {c : Char} {rest : List Char} (solid : triviaLength (c :: rest) = 0)
    (plain : c ≠ backtick) (free : '\'' ∉ c :: rest) :
    Lexed (Starts ((c :: rest).drop (lexemeAt (rest.length + 1) c rest).length))
        ((c :: rest).take (lexemeAt (rest.length + 1) c rest).length)
        ((lexemeAt (rest.length + 1) c rest).kind,
          String.ofList (lexemeAt (rest.length + 1) c rest).value) ∨
      isQuote c = true ∧ rest.length ≤ tailLength c rest := by
  cases quote : isQuote c with
  | false => exact .inl (lexed_of_unquoted solid quote plain)
  | true =>
      by_cases inside : tailLength c rest < rest.length
      · left
        obtain rfl := eq_double_of_isQuote quote fun same => free (same ▸ List.mem_cons_self)
        have closed := closedLiteral_of_lt (fun member => free (List.mem_cons_of_mem _ member))
          inside
        have length : min (tailLength '"' rest + 1) (rest.length + 1) =
            tailLength '"' rest + 1 := by omega
        have read : lexemeAt (rest.length + 1) '"' rest =
            ⟨.literal, '"' :: rest.take (tailLength '"' rest), tailLength '"' rest + 1⟩ := by
          rw [lexemeAt_quote _ _ quote, length, List.take_succ_cons]
        refine lexed_of_lexemeAt solid ?_ ?_ fun same => absurd same plain
        · rw [read]
          exact Nat.succ_lt_succ inside
        · intro _
          rw [read]
          exact closed
      · exact .inr ⟨rfl, Nat.not_lt.mp inside⟩

theorem spaced_stripComments (plain : backtick ∉ text) (free : '\'' ∉ text) (pos : Nat) :
    SpacedTokens (stripComments (text.drop pos))
      ((tokens text pos text.length).map Token.spelling) := by
  -- Each token takes the reading further, so the induction is on what is left of the text.
  induction size : text.length - pos using Nat.strong_induction_on generalizing pos with
  | _ length ih =>
    subst size
    obtain ⟨blanks, blank, -, same⟩ := stripComments_start (text.drop pos)
    rw [same, tokens_skip (nextToken_triviaLength text pos text.length), List.drop_drop]
    apply SpacedTokens.blanks blank
    have solid := triviaLength_drop_triviaLength (text.drop pos)
    rw [List.drop_drop] at solid
    generalize start : pos + triviaLength (text.drop pos) = first at solid
    cases here : text.drop first with
    | nil =>
        rw [stripComments_nil, tokens_of_none (nextToken_of_drop_nil here _)]
        exact .nil
    | cons c rest =>
        rw [here] at solid
        have read := nextToken_solid_whole here solid
        have bounds := nextToken_bounds read
        have member : ∀ d ∈ c :: rest, d ∈ text := fun d inside =>
          List.mem_of_mem_drop (here ▸ inside)
        have later := ih (text.length - (first + (lexemeAt (rest.length + 1) c rest).length))
          (by dsimp only at bounds; omega) _ rfl
        cases lexed_or_unclosed solid (fun same => plain (same ▸ member c List.mem_cons_self))
          (fun inside => free (member _ inside)) with
        | inl lexed =>
            rw [← List.drop_drop, here] at later
            have spaced := SpacedTokens.of_lexed lexed later
            rw [List.take_append_drop] at spaced
            rw [tokens_of_some read, List.map_cons]
            exact spaced
        | inr unclosed =>
            have spaced := SpacedTokens.unclosed unclosed.1 unclosed.2
            rw [spaced.stripComments_eq, tokens_unclosed here unclosed.1 unclosed.2]
            exact spaced

/-- The text without its comments has the tokens of the text, by kind and value, and only blanks
outside of them. Nothing is left to be taken out. -/
theorem stripComments_keeps_tokens (plain : backtick ∉ text) (free : '\'' ∉ text) :
    let bare := stripComments text
    (tokens bare 0 bare.length).map Token.spelling =
        (tokens text 0 text.length).map Token.spelling ∧
      BlankOutside bare 0 (tokens bare 0 bare.length) ∧ stripComments bare = bare := by
  intro bare
  have spaced : SpacedTokens bare ((tokens text 0 text.length).map Token.spelling) :=
    spaced_stripComments plain free 0
  have reads := @SpacedTokens.reads bare 0 bare _ spaced rfl
  exact ⟨reads.1, reads.2, spaced.stripComments_eq⟩

/-- A comment between a dash and an angle, or between two colons, leaves them apart. -/
theorem stripComments_keeps_tokens_apart :
    let text := "f/**/\"//\"-/* */>:// c\n:\"a".toList
    let bare := stripComments text
    backtick ∉ text ∧ '\'' ∉ text ∧ bare = "f \"//\"- >: :\"a".toList ∧
      (tokens bare 0 bare.length).map Token.spelling =
        (tokens text 0 text.length).map Token.spelling ∧
      BlankOutside bare 0 (tokens bare 0 bare.length) := by
  intro text bare
  have plain : backtick ∉ text := by decide
  have free : '\'' ∉ text := by decide
  have taken : bare = "f \"//\"- >: :\"a".toList := by decide +kernel
  have kept := stripComments_keeps_tokens plain free
  exact ⟨plain, free, taken, kept.1, kept.2.1⟩

end StripComments

end DartBindings.Source
