import DartBindings.Proofs.Source.Literal

/-!
Scans from offset to offset. Literals and groups are read by scans that call one another: a group
has literals in it, and the contents of a literal have groups of code in them. On any text each
scan goes on behind the offset where it started, so all of them come to an end, at one offset
only, and that is where the literal and the group end.
-/

set_option autoImplicit false

namespace DartBindings.Source

open Text

/-- The trivia from an offset on, in a window that ends at `stop`, ends at the second offset. -/
inductive TriviaScan (text : List Char) (stop : Nat) : Nat → Nat → Prop where
  | outside {pos} : stop ≤ pos → TriviaScan text stop pos stop
  | blank {pos c rest last} : pos < stop → text.drop pos = c :: rest → isBlank c = true →
      TriviaScan text stop (pos + 1) last → TriviaScan text stop pos last
  | comment {pos n last} : pos < stop → commentLength (text.drop pos) = n + 1 →
      TriviaScan text stop (pos + (n + 1)) last → TriviaScan text stop pos last
  | solid {pos c rest} : pos < stop → text.drop pos = c :: rest → isBlank c = false →
      commentLength (c :: rest) = 0 → TriviaScan text stop pos pos

mutual

/-- The contents of a literal with this mark, read from an offset on, end with the mark before
another offset. There is none if a line ends in contents that must not go beyond it. -/
inductive ContentScan (text : List Char) : List Char → Nat → Option Nat → Prop where
  | outside {mark pos} : text.drop pos = [] → ContentScan text mark pos (some text.length)
  | marked {mark pos c rest} : text.drop pos = c :: rest → mark.isPrefixOf (c :: rest) = true →
      ContentScan text mark pos (some (pos + mark.length))
  | code {mark pos lead opening closing rest stop found} :
      text.drop pos = lead :: opening :: rest →
      mark.isPrefixOf (lead :: opening :: rest) = false → Interpolates lead opening closing →
      GroupScan text (some opening) (some closing) 1 (pos + 2) (some stop) →
      ContentScan text mark (stop + 1) found → ContentScan text mark pos found
  | openCode {mark pos lead opening closing rest found} :
      text.drop pos = lead :: opening :: rest →
      mark.isPrefixOf (lead :: opening :: rest) = false → Interpolates lead opening closing →
      GroupScan text (some opening) (some closing) 1 (pos + 2) none →
      ContentScan text mark text.length found → ContentScan text mark pos found
  | escape {mark pos rest found} : text.drop pos = '\\' :: rest →
      mark.isPrefixOf ('\\' :: rest) = false → rest.head? ≠ some '(' →
      ContentScan text mark (pos + 2) found → ContentScan text mark pos found
  | stray {pos rest} : text.drop pos = '\n' :: rest → ContentScan text ['\''] pos none
  | char {mark pos c rest found} : text.drop pos = c :: rest →
      mark.isPrefixOf (c :: rest) = false → c ≠ '\\' →
      (c = '$' → rest.head? ≠ some '\x7b') → ¬ (c = '\n' ∧ mark = ['\'']) →
      ContentScan text mark (pos + 1) found → ContentScan text mark pos found

/-- The literal that starts at an offset ends before another one. -/
inductive LiteralScan (text : List Char) : Nat → Nat → Prop where
  | triple {pos rest stop} : text.drop pos = tripleQuote ++ rest →
      ContentScan text tripleQuote (pos + 3) (some stop) → LiteralScan text pos stop
  | single {pos quote rest found} : text.drop pos = quote :: rest →
      tripleQuote.isPrefixOf (quote :: rest) = false → ContentScan text [quote] (pos + 1) found →
      LiteralScan text pos (found.getD (pos + 1))

/-- The group of which `depth` levels are open at an offset is closed at another one, if it is. -/
inductive GroupScan (text : List Char) :
    Option Char → Option Char → Nat → Nat → Option Nat → Prop where
  | outside {opening closing depth pos} : text.drop pos = [] →
      GroupScan text opening closing depth pos none
  | literal {opening closing depth pos quote rest stop found} : text.drop pos = quote :: rest →
      isQuote quote = true → LiteralScan text pos stop →
      GroupScan text opening closing depth stop found →
      GroupScan text opening closing depth pos found
  | comment {opening closing depth pos stop found} : commentLength (text.drop pos) ≠ 0 →
      TriviaScan text text.length pos stop → GroupScan text opening closing depth stop found →
      GroupScan text opening closing depth pos found
  | opens {closing depth pos c rest found} : text.drop pos = c :: rest → isQuote c = false →
      commentLength (c :: rest) = 0 → GroupScan text (some c) closing (depth + 1) (pos + 1) found →
      GroupScan text (some c) closing depth pos found
  | closes {opening depth pos c rest found} : text.drop pos = c :: rest → isQuote c = false →
      commentLength (c :: rest) = 0 → some c ≠ opening → 1 < depth →
      GroupScan text opening (some c) (depth - 1) (pos + 1) found →
      GroupScan text opening (some c) depth pos found
  | ends {opening depth pos c rest} : text.drop pos = c :: rest → isQuote c = false →
      commentLength (c :: rest) = 0 → some c ≠ opening → depth ≤ 1 →
      GroupScan text opening (some c) depth pos (some pos)
  | char {opening closing depth pos c rest found} : text.drop pos = c :: rest →
      isQuote c = false → commentLength (c :: rest) = 0 → some c ≠ opening → some c ≠ closing →
      GroupScan text opening closing depth (pos + 1) found →
      GroupScan text opening closing depth pos found

end

section Offsets

variable {text rest : List Char} {pos : Nat} {c : Char}

theorem lt_length_of_drop (here : text.drop pos = c :: rest) : pos < text.length := by
  have size := congrArg List.length here
  rw [List.length_drop, List.length_cons] at size
  omega

theorem drop_add (here : text.drop pos = c :: rest) (n : Nat) :
    text.drop (pos + (n + 1)) = rest.drop n := by
  rw [← List.drop_drop, here, List.drop_succ_cons]

theorem drop_succ (here : text.drop pos = c :: rest) : text.drop (pos + 1) = rest :=
  drop_add here 0

theorem exists_drop (inside : pos < text.length) : ∃ c rest, text.drop pos = c :: rest :=
  ⟨text[pos], text.drop (pos + 1), List.drop_eq_getElem_cons inside⟩

end Offsets

/-! ## Trivia -/

section Trivia

variable {text : List Char} {pos stop last : Nat}

theorem TriviaScan.eq (scan : TriviaScan text stop pos last) :
    last = skipTrivia text pos stop := by
  unfold skipTrivia
  induction scan with
  | outside beyond => omega
  | blank _ here blank _ ih =>
      rw [ih, drop_succ here, here, triviaLength_blank blank]
      omega
  | @comment pos n last _ comment _ ih =>
      rw [ih]
      cases here : text.drop pos with
      | nil =>
          rw [here] at comment
          cases comment
      | cons c rest =>
          rw [here] at comment
          rw [drop_add here, triviaLength_comment comment]
          omega
  | solid inside here blank comment =>
      rw [here, triviaLength_eq_zero_iff.mpr ⟨blank, comment⟩]
      omega

theorem exists_triviaScan (inside : stop ≤ text.length) (pos : Nat) :
    ∃ last, TriviaScan text stop pos last := by
  by_cases beyond : stop ≤ pos
  · exact ⟨stop, .outside beyond⟩
  · have before : pos < stop := Nat.lt_of_not_le beyond
    obtain ⟨c, rest, here⟩ := exists_drop (Nat.lt_of_lt_of_le before inside)
    cases blank : isBlank c with
    | true =>
        obtain ⟨last, scan⟩ := exists_triviaScan inside (pos + 1)
        exact ⟨last, .blank before here blank scan⟩
    | false =>
        cases comment : commentLength (c :: rest) with
        | zero => exact ⟨pos, .solid before here blank comment⟩
        | succ n =>
            obtain ⟨last, scan⟩ := exists_triviaScan inside (pos + (n + 1))
            exact ⟨last, .comment before (by rw [here, comment]) scan⟩
termination_by stop - pos

theorem triviaScan_iff (inside : stop ≤ text.length) :
    TriviaScan text stop pos last ↔ last = skipTrivia text pos stop := by
  constructor
  · exact TriviaScan.eq
  · rintro rfl
    obtain ⟨last, scan⟩ := exists_triviaScan inside pos
    exact scan.eq ▸ scan

theorem skipTrivia_le (text : List Char) (pos stop : Nat) : skipTrivia text pos stop ≤ stop :=
  Nat.min_le_right _ _

/-- A blank or a comment starts at this offset. -/
def TriviaAt (text : List Char) (pos : Nat) : Prop :=
  (∃ c, text[pos]? = some c ∧ isBlank c = true) ∨
    ['/', '/'] <+: text.drop pos ∨ ['/', '*'] <+: text.drop pos

theorem lt_skipTrivia (before : pos < stop) (trivia : 0 < triviaLength (text.drop pos)) :
    pos < skipTrivia text pos stop := by
  unfold skipTrivia
  omega

theorem TriviaAt.triviaLength_pos (trivia : TriviaAt text pos) :
    0 < triviaLength (text.drop pos) := by
  rcases trivia with ⟨c, here, blank⟩ | ⟨rest, line⟩ | ⟨rest, block⟩
  · obtain ⟨inside, rfl⟩ := List.getElem?_eq_some_iff.mp here
    rw [List.drop_eq_getElem_cons inside, triviaLength_blank blank]
    exact Nat.succ_pos _
  · rw [← line]
    exact Nat.pos_of_ne_zero fun none => nomatch (triviaLength_eq_zero_iff.mp none).2
  · rw [← block]
    exact Nat.pos_of_ne_zero fun none => nomatch (triviaLength_eq_zero_iff.mp none).2

theorem lt_skipTrivia_of_commentLength (comment : commentLength (text.drop pos) ≠ 0) :
    pos < skipTrivia text pos text.length := by
  cases here : text.drop pos with
  | nil => exact absurd (by rw [here]; rfl) comment
  | cons c rest =>
      apply lt_skipTrivia (lt_length_of_drop here)
      apply Nat.pos_of_ne_zero
      intro none
      rw [here] at none
      rw [here] at comment
      exact comment (triviaLength_eq_zero_iff.mp none).2

end Trivia

/-! ## Scans come to an end -/

/-- What is found, if anything, is an offset in the text or at its end, and not before this one. -/
def EndsBehind (text : List Char) (pos : Nat) (found : Option Nat) : Prop :=
  ∀ stop ∈ found, min pos text.length ≤ stop ∧ stop ≤ text.length

/-- What is found, if anything, is an offset in the text, and not before this one. -/
def FoundFrom (text : List Char) (pos : Nat) (found : Option Nat) : Prop :=
  ∀ n ∈ found, pos ≤ n ∧ n < text.length

section Behind

variable {text : List Char} {pos later : Nat} {found : Option Nat}

theorem EndsBehind.mono (behind : EndsBehind text later found) (ordered : pos ≤ later) :
    EndsBehind text pos found := by
  intro stop ends
  have := behind stop ends
  omega

theorem endsBehind_length (text : List Char) (pos : Nat) :
    EndsBehind text pos (some text.length) := by
  rintro _ ⟨⟩
  exact ⟨Nat.min_le_right _ _, Nat.le_refl _⟩

theorem FoundFrom.mono (behind : FoundFrom text later found) (ordered : pos ≤ later) :
    FoundFrom text pos found :=
  fun n ends => (behind n ends).imp_left ordered.trans

end Behind

-- Each scan calls the others only behind the offset where it stands, apart from a group that calls
-- the scan of a literal there. What they find is bounded, so the scan can go on behind it.
mutual

theorem exists_contentScan (text mark : List Char) (pos : Nat) :
    ∃ found, ContentScan text mark pos found ∧ (found = none → mark = ['\'']) ∧
      EndsBehind text pos found := by
  generalize here : text.drop pos = left
  cases contentStep mark left with
  | nil => exact ⟨_, .outside here, nofun, endsBehind_length text pos⟩
  | @ends c rest marked =>
      have short := (List.isPrefixOf_iff_prefix.mp marked).length_le
      rw [← here, List.length_drop] at short
      have inside := lt_length_of_drop here
      refine ⟨_, .marked here marked, nofun, ?_⟩
      rintro _ ⟨⟩
      omega
  | stray apostrophe =>
      subst apostrophe
      exact ⟨none, .stray here, fun _ => rfl, nofun⟩
  | @last c goesOn literal =>
      have ended : text.drop (pos + 2) = [] := drop_add here 1
      refine ⟨some text.length, ?_, nofun, endsBehind_length text pos⟩
      by_cases escape : c = '\\'
      · subst escape
        exact .escape here goesOn nofun (.outside ended)
      · exact .char here goesOn escape (fun _ => nofun) literal (.outside (drop_succ here))
  | @code c d closing rest goesOn starts =>
      have inside := lt_length_of_drop here
      obtain ⟨closed, group, bounds⟩ := exists_groupScan text (some d) (some closing) 1 (pos + 2)
      cases closed with
      | none =>
          have scan : ContentScan text mark text.length (some text.length) :=
            .outside List.drop_length
          exact ⟨_, .openCode here goesOn starts group scan, nofun, endsBehind_length text pos⟩
      | some n =>
          obtain ⟨further, -⟩ := bounds n rfl
          obtain ⟨found, scan, stray, behind⟩ := exists_contentScan text mark (n + 1)
          exact ⟨found, .code here goesOn starts group scan, stray, behind.mono (by omega)⟩
  | @escape d rest goesOn other =>
      have inside := lt_length_of_drop here
      obtain ⟨found, scan, stray, behind⟩ := exists_contentScan text mark (pos + 2)
      have noCode : (d :: rest).head? ≠ some '(' := fun same => other (Option.some.inj same)
      exact ⟨found, .escape here goesOn noCode scan, stray, behind.mono (by omega)⟩
  | @char c d rest goesOn noEscape plain literal =>
      have inside := lt_length_of_drop here
      obtain ⟨found, scan, stray, behind⟩ := exists_contentScan text mark (pos + 1)
      refine ⟨found, .char here goesOn noEscape ?_ literal scan, stray, behind.mono (by omega)⟩
      rintro rfl ⟨⟩
      exact plain .curly
termination_by 2 * (text.length - pos)

theorem exists_literalScan {text : List Char} {pos : Nat} (inside : pos < text.length) :
    ∃ stop, LiteralScan text pos stop ∧ pos < stop ∧ stop ≤ text.length := by
  obtain ⟨quote, rest, here⟩ := exists_drop inside
  cases triple : tripleQuote.isPrefixOf (quote :: rest) with
  | true =>
      obtain ⟨more, split⟩ := List.isPrefixOf_iff_prefix.mp triple
      have size := congrArg List.length (here.trans split.symm)
      have marks : tripleQuote.length = 3 := rfl
      rw [List.length_drop, List.length_append] at size
      obtain ⟨found, scan, stray, behind⟩ := exists_contentScan text tripleQuote (pos + 3)
      cases found with
      | none => exact nomatch stray rfl
      | some stop =>
          have := behind stop rfl
          exact ⟨stop, .triple (here.trans split.symm) scan, by omega, by omega⟩
  | false =>
      obtain ⟨found, scan, -, behind⟩ := exists_contentScan text [quote] (pos + 1)
      refine ⟨_, .single here triple scan, ?_⟩
      cases found with
      | none => exact ⟨Nat.lt_succ_self pos, inside⟩
      | some stop =>
          have := behind stop rfl
          dsimp only [Option.getD_some]
          omega
termination_by 2 * (text.length - pos)

theorem exists_groupScan (text : List Char) (opening closing : Option Char) (depth pos : Nat) :
    ∃ found, GroupScan text opening closing depth pos found ∧ FoundFrom text pos found := by
  cases here : text.drop pos with
  | nil => exact ⟨none, .outside here, nofun⟩
  | cons c rest =>
      have inside := lt_length_of_drop here
      cases quote : isQuote c with
      | true =>
          obtain ⟨stop, literal, further, -⟩ := exists_literalScan inside
          obtain ⟨found, scan, bounds⟩ := exists_groupScan text opening closing depth stop
          exact ⟨found, .literal here quote literal scan, bounds.mono further.le⟩
      | false =>
          by_cases comment : commentLength (c :: rest) = 0
          · by_cases first : some c = opening
            · subst first
              obtain ⟨found, scan, bounds⟩ :=
                exists_groupScan text (some c) closing (depth + 1) (pos + 1)
              exact ⟨found, .opens here quote comment scan, bounds.mono (Nat.le_succ pos)⟩
            · by_cases last : some c = closing
              · subst last
                by_cases single : depth ≤ 1
                · refine ⟨some pos, .ends here quote comment first single, ?_⟩
                  rintro _ ⟨⟩
                  exact ⟨Nat.le_refl pos, inside⟩
                · obtain ⟨found, scan, bounds⟩ :=
                    exists_groupScan text opening (some c) (depth - 1) (pos + 1)
                  exact ⟨found, .closes here quote comment first (Nat.lt_of_not_le single) scan,
                    bounds.mono (Nat.le_succ pos)⟩
              · obtain ⟨found, scan, bounds⟩ :=
                  exists_groupScan text opening closing depth (pos + 1)
                exact ⟨found, .char here quote comment first last scan,
                  bounds.mono (Nat.le_succ pos)⟩
          · rw [← here] at comment
            obtain ⟨stop, trivia⟩ := exists_triviaScan (Nat.le_refl text.length) pos
            have further : pos < stop := trivia.eq ▸ lt_skipTrivia_of_commentLength comment
            obtain ⟨found, scan, bounds⟩ := exists_groupScan text opening closing depth stop
            exact ⟨found, .comment comment trivia scan, bounds.mono further.le⟩
termination_by 2 * (text.length - pos) + 1

end

/-! ## Where scans end -/

/-- The offset in the whole text of what is found in the text from `pos` on. -/
def atOffset (text : List Char) (pos : Nat) (found : Option Nat) : Option Nat :=
  found.map (min pos text.length + ·)

/-- The offset after the contents of a literal with this mark that are read from `pos` on. -/
def contentStop (text mark : List Char) (pos : Nat) : Option Nat :=
  atOffset text pos (contentLength mark (text.drop pos))

/-- The offset of the delimiter that closes a group of which `depth` levels are open at `pos`. -/
def groupStop (text : List Char) (opening closing : Option Char) (depth pos : Nat) : Option Nat :=
  atOffset text pos (closingIndex opening closing depth (text.drop pos))

section Stops

variable {text mark rest : List Char} {opening closing : Option Char} {depth pos n : Nat}
  {c lead first last : Char}

theorem atOffset_add {found : Option Nat} (inside : ∀ m ∈ found, pos + n ≤ text.length) :
    atOffset text pos (found.map (· + n)) = atOffset text (pos + n) found := by
  cases found with
  | none => rfl
  | some m =>
      have := inside m rfl
      simp only [atOffset, Option.map_some, Option.some.injEq]
      omega

theorem contentStop_ended (mark : List Char) (ended : text.drop pos = []) :
    contentStop text mark pos = some text.length := by
  have beyond := List.drop_eq_nil_iff.mp ended
  rw [contentStop, ended, contentLength_nil, atOffset, Option.map_some, Nat.min_eq_right beyond]
  rfl

theorem contentStop_mark (here : text.drop pos = c :: rest)
    (ends : mark.isPrefixOf (c :: rest) = true) :
    contentStop text mark pos = some (pos + mark.length) := by
  rw [contentStop, here, contentLength_mark ends, atOffset, Option.map_some,
    Nat.min_eq_left (lt_length_of_drop here).le]

theorem contentStop_later (inside : pos + n ≤ text.length)
    (passed : contentLength mark (text.drop pos) =
      (contentLength mark (text.drop (pos + n))).map (· + n)) :
    contentStop text mark pos = contentStop text mark (pos + n) := by
  rw [contentStop, passed, atOffset_add fun _ _ => inside]
  rfl

/-- A character at the end of the text is the end of the contents. -/
theorem contentStop_last (here : text.drop pos = [c]) (goesOn : mark.isPrefixOf [c] = false)
    (literal : ¬ (c = '\n' ∧ mark = ['\''])) : contentStop text mark pos = some text.length := by
  have size := congrArg List.length here
  rw [List.length_drop, List.length_singleton] at size
  rw [contentStop, here, contentLength_last goesOn literal, atOffset, Option.map_some,
    Option.some.injEq]
  omega

theorem contentStop_code (here : text.drop pos = lead :: first :: rest)
    (goesOn : mark.isPrefixOf (lead :: first :: rest) = false)
    (starts : Interpolates lead first last)
    {stop : Nat} (closed : groupStop text (some first) (some last) 1 (pos + 2) = some stop) :
    contentStop text mark pos = contentStop text mark (stop + 1) := by
  have second := lt_length_of_drop (drop_succ here)
  have code : text.drop (pos + 2) = rest := drop_succ (drop_succ here)
  rw [groupStop, code] at closed
  obtain ⟨n, found, rfl⟩ := Option.map_eq_some_iff.mp closed
  have bound := closingIndex_lt found
  have size := congrArg List.length code
  rw [List.length_drop] at size
  have after : min (pos + 2) text.length + n + 1 = pos + (n + 3) := by omega
  have beyond : text.drop (pos + (n + 3)) = rest.drop (n + 1) := by
    rw [drop_add here (n + 2), List.drop_succ_cons]
  rw [after]
  apply contentStop_later (by omega)
  rw [here, beyond, contentLength_interpolation goesOn starts found]

theorem contentStop_openCode (here : text.drop pos = lead :: first :: rest)
    (goesOn : mark.isPrefixOf (lead :: first :: rest) = false)
    (starts : Interpolates lead first last)
    (unclosed : groupStop text (some first) (some last) 1 (pos + 2) = none) :
    contentStop text mark pos = some text.length := by
  have code : text.drop (pos + 2) = rest := drop_succ (drop_succ here)
  have size := congrArg List.length here
  rw [List.length_drop, List.length_cons, List.length_cons] at size
  rw [groupStop, code, atOffset, Option.map_eq_none_iff] at unclosed
  rw [contentStop, here, contentLength_unclosed goesOn starts unclosed, atOffset, Option.map_some,
    Option.some.injEq]
  omega

theorem contentStop_escape (here : text.drop pos = '\\' :: rest)
    (goesOn : mark.isPrefixOf ('\\' :: rest) = false) (noCode : rest.head? ≠ some '(') :
    contentStop text mark pos = contentStop text mark (pos + 2) := by
  cases rest with
  | nil =>
      have ended : text.drop (pos + 2) = [] := by rw [drop_add here 1, List.drop_nil]
      rw [contentStop_last here goesOn (by simp), contentStop_ended mark ended]
  | cons d rest =>
      have second := lt_length_of_drop (drop_succ here)
      have other : d ≠ '(' := fun same => noCode (congrArg some same)
      apply contentStop_later second
      rw [here, drop_succ (drop_succ here), contentLength_escape goesOn other]

theorem contentStop_char (here : text.drop pos = c :: rest)
    (goesOn : mark.isPrefixOf (c :: rest) = false) (noEscape : c ≠ '\\')
    (noCode : c = '$' → rest.head? ≠ some '\x7b') (literal : ¬ (c = '\n' ∧ mark = ['\''])) :
    contentStop text mark pos = contentStop text mark (pos + 1) := by
  cases rest with
  | nil => rw [contentStop_last here goesOn literal, contentStop_ended mark (drop_succ here)]
  | cons d rest =>
      have plain : ¬ Interpolates c d '\x7d' := by
        intro starts
        cases starts
        exact noCode rfl rfl
      apply contentStop_later (lt_length_of_drop here)
      rw [here, drop_succ here, contentLength_char goesOn noEscape plain literal]

theorem skipLiteral_triple (here : text.drop pos = tripleQuote ++ rest) {stop : Nat}
    (read : contentStop text tripleQuote (pos + 3) = some stop) : skipLiteral text pos = stop := by
  have contents : text.drop (pos + 3) = rest := drop_succ (drop_succ (drop_succ here))
  have size := congrArg List.length here
  have marks : tripleQuote.length = 3 := rfl
  rw [List.length_drop, List.length_append] at size
  rw [contentStop, contents] at read
  obtain ⟨n, length, rfl⟩ := Option.map_eq_some_iff.mp read
  rw [skipLiteral, here, literalLength_triple, length, Option.getD_some]
  omega

theorem skipLiteral_single (here : text.drop pos = c :: rest)
    (single : tripleQuote.isPrefixOf (c :: rest) = false) :
    skipLiteral text pos = (contentStop text [c] (pos + 1)).getD (pos + 1) := by
  have inside := lt_length_of_drop here
  rw [skipLiteral, here, literalLength_single single, contentStop, drop_succ here]
  cases contentLength [c] rest with
  | none => simp only [atOffset, Option.map_none, Option.getD_none, Nat.zero_add]
  | some n =>
      simp only [atOffset, Option.map_some, Option.getD_some]
      omega

theorem groupStop_ended (opening closing : Option Char) (depth : Nat) (ended : text.drop pos = []) :
    groupStop text opening closing depth pos = none := by
  rw [groupStop, ended, closingIndex_nil]
  rfl

theorem groupStop_later {after : Nat}
    (passed : closingIndex opening closing depth (text.drop pos) =
      (closingIndex opening closing after (text.drop (pos + n))).map (· + n)) :
    groupStop text opening closing depth pos = groupStop text opening closing after (pos + n) := by
  rw [groupStop, passed, atOffset_add]
  · rfl
  · intro m found
    have bound := closingIndex_lt found
    rw [List.length_drop] at bound
    omega

theorem groupStop_literal (here : text.drop pos = c :: rest) (quote : isQuote c = true) :
    groupStop text opening closing depth pos =
      groupStop text opening closing depth (skipLiteral text pos) := by
  rw [skipLiteral, here]
  apply groupStop_later
  rw [here, literalLength, drop_add here, closingIndex_literal quote]

theorem groupStop_comment (comment : commentLength (text.drop pos) ≠ 0) :
    groupStop text opening closing depth pos =
      groupStop text opening closing depth (skipTrivia text pos text.length) := by
  cases here : text.drop pos with
  | nil => exact absurd (by rw [here]; rfl) comment
  | cons c rest =>
      rw [here] at comment
      obtain ⟨n, length⟩ := Nat.exists_eq_add_one_of_ne_zero comment
      have later : groupStop text opening closing depth pos =
          groupStop text opening closing depth (pos + triviaLength (c :: rest)) := by
        apply groupStop_later
        rw [here, closingIndex_commented length, ← here, List.drop_drop]
      rw [later, skipTrivia, here]
      -- Trivia that goes on beyond the text leaves nothing to search.
      by_cases inside : pos + triviaLength (c :: rest) ≤ text.length
      · rw [Nat.min_eq_left inside]
      · rw [Nat.min_eq_right (by omega), groupStop_ended _ _ _ List.drop_length,
          groupStop_ended _ _ _ (List.drop_eq_nil_iff.mpr (by omega))]

theorem groupStop_opening (here : text.drop pos = c :: rest) (quote : isQuote c = false)
    (comment : commentLength (c :: rest) = 0) :
    groupStop text (some c) closing depth pos =
      groupStop text (some c) closing (depth + 1) (pos + 1) := by
  apply groupStop_later
  rw [here, drop_succ here, closingIndex_opening quote comment]

theorem groupStop_other (here : text.drop pos = c :: rest) (quote : isQuote c = false)
    (comment : commentLength (c :: rest) = 0) (notOpening : some c ≠ opening)
    (notClosing : some c ≠ closing) :
    groupStop text opening closing depth pos = groupStop text opening closing depth (pos + 1) := by
  apply groupStop_later
  rw [here, drop_succ here, closingIndex_other quote comment notOpening notClosing]

theorem groupStop_closing (here : text.drop pos = c :: rest) (quote : isQuote c = false)
    (comment : commentLength (c :: rest) = 0) (different : some c ≠ opening) :
    groupStop text opening (some c) depth pos =
      if depth ≤ 1 then some pos else groupStop text opening (some c) (depth - 1) (pos + 1) := by
  by_cases single : depth ≤ 1
  · rw [if_pos single, groupStop, here, closingIndex_closing quote comment different, if_pos single,
      atOffset, Option.map_some, Nat.min_eq_left (lt_length_of_drop here).le, Nat.add_zero]
  · rw [if_neg single]
    apply groupStop_later
    rw [here, drop_succ here, closingIndex_closing quote comment different, if_neg single]

end Stops

mutual

theorem ContentScan.eq {text mark : List Char} {pos : Nat} {found : Option Nat} :
    ContentScan text mark pos found → found = contentStop text mark pos
  | .outside ended => (contentStop_ended _ ended).symm
  | .marked here ends => (contentStop_mark here ends).symm
  | .code here goesOn starts group scan =>
      scan.eq.trans (contentStop_code here goesOn starts group.eq.symm).symm
  | .openCode here goesOn starts group scan => by
      rw [scan.eq, contentStop_ended _ List.drop_length,
        contentStop_openCode here goesOn starts group.eq.symm]
  | .escape here goesOn noCode scan => scan.eq.trans (contentStop_escape here goesOn noCode).symm
  | .stray here => by
      rw [contentStop, here, contentLength_stray rfl]
      rfl
  | .char here goesOn noEscape noCode literal scan =>
      scan.eq.trans (contentStop_char here goesOn noEscape noCode literal).symm

theorem LiteralScan.eq {text : List Char} {pos stop : Nat} :
    LiteralScan text pos stop → stop = skipLiteral text pos
  | .triple here scan => (skipLiteral_triple here scan.eq.symm).symm
  | .single here single scan => by rw [skipLiteral_single here single, scan.eq]

theorem GroupScan.eq {text : List Char} {opening closing : Option Char} {depth pos : Nat}
    {found : Option Nat} : GroupScan text opening closing depth pos found →
      found = groupStop text opening closing depth pos
  | .outside ended => (groupStop_ended _ _ _ ended).symm
  | .literal here quote literal scan => by rw [scan.eq, literal.eq, groupStop_literal here quote]
  | .comment comment trivia scan => by rw [scan.eq, trivia.eq, groupStop_comment comment]
  | .opens here quote comment scan => scan.eq.trans (groupStop_opening here quote comment).symm
  | .closes here quote comment different deep scan => by
      rw [scan.eq, groupStop_closing here quote comment different, if_neg (Nat.not_le.mpr deep)]
  | .ends here quote comment different single => by
      rw [groupStop_closing here quote comment different, if_pos single]
  | .char here quote comment notOpening notClosing scan =>
      scan.eq.trans (groupStop_other here quote comment notOpening notClosing).symm

end

/-! ## One end only -/

section Ends

variable {text : List Char} {opening closing : Option Char} {depth pos stop : Nat}
  {found : Option Nat}

theorem literalScan_iff (inside : pos < text.length) :
    LiteralScan text pos stop ↔ stop = skipLiteral text pos := by
  constructor
  · exact LiteralScan.eq
  · rintro rfl
    obtain ⟨stop, scan, -⟩ := exists_literalScan inside
    exact scan.eq ▸ scan

theorem skipLiteral_bounds (inside : pos < text.length) :
    pos < skipLiteral text pos ∧ skipLiteral text pos ≤ text.length := by
  obtain ⟨stop, scan, bounds⟩ := exists_literalScan inside
  exact scan.eq ▸ bounds

theorem groupScan_iff :
    GroupScan text opening closing depth pos found ↔
      found = groupStop text opening closing depth pos := by
  constructor
  · exact GroupScan.eq
  · rintro rfl
    obtain ⟨found, scan, -⟩ := exists_groupScan text opening closing depth pos
    exact scan.eq ▸ scan

theorem groupStop_bounds (ends : groupStop text opening closing depth pos = some stop) :
    pos ≤ stop ∧ stop < text.length ∧ text[stop]? = closing := by
  obtain ⟨found, scan, bounds⟩ := exists_groupScan text opening closing depth pos
  obtain ⟨after, inside⟩ := bounds stop (scan.eq.trans ends)
  obtain ⟨n, index, rfl⟩ := Option.map_eq_some_iff.mp ends
  obtain ⟨c, rfl, here⟩ := closingIndex_getElem? index
  rw [List.getElem?_drop] at here
  have start : min pos text.length = pos := by omega
  exact ⟨after, inside, start.symm ▸ here⟩

theorem findClosing_eq_groupStop (text : List Char) (start : Nat) (opening closing : Option Char) :
    findClosing text start opening closing =
      (groupStop text opening closing 1 start).elim (.error ⟨start, text.drop start⟩) .ok := by
  rw [findClosing_eq, groupStop]
  cases found : closingIndex opening closing 1 (text.drop start) with
  | none => rfl
  | some n =>
      have inside := closingIndex_lt found
      rw [List.length_drop] at inside
      simp only [atOffset, Option.map_some, Option.elim_some, Except.ok.injEq]
      omega

theorem findClosing_toOption (text : List Char) (start : Nat) (opening closing : Option Char) :
    (findClosing text start opening closing).toOption = groupStop text opening closing 1 start := by
  rw [findClosing_eq_groupStop]
  cases groupStop text opening closing 1 start <;> rfl

end Ends

end DartBindings.Source
