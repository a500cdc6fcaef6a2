import DartBindings.Proofs.Declaration.Course
import DartBindings.Proofs.Source.Scans

/-!
Rounds of the loops over tokens. In each round a loop reads a token, and what it does with the
token takes it further in the text. It starts no round beyond its window, so it has no more of them
than there are offsets left. Together with the scans of literals, groups and trivia these loops are
what an extraction does with a text, apart from passes over what they find.
-/

set_option autoImplicit false

namespace DartBindings.Declaration

open Text Source Bridge

/-! ## Rounds -/

/-- The states of a loop, from one on to the state in which it ends. -/
inductive Rounds {σ : Type} (next : σ → Option σ) : σ → List σ → Prop where
  | last {state} : next state = none → Rounds next state [state]
  | round {state later states} : next state = some later → Rounds next later states →
      Rounds next state (state :: states)

/-- Each round of a loop goes further, and starts before `stop`. -/
def Advances {σ : Type} (next : σ → Option σ) (pos : σ → Nat) (stop : Nat) : Prop :=
  ∀ {state later}, next state = some later → pos state < pos later ∧ pos state < stop

/-- A loop that goes further in each round comes to an end from every state on, and what it
computes is gathered from the states that it comes to. -/
structure Loop {σ α : Type} (next : σ → Option σ) (pos : σ → Nat) (stop : Nat) (result : σ → α)
    (gathered : List σ → α) : Prop where
  advances : Advances next pos stop
  ends : ∀ state, ∃ states, Rounds next state states ∧ states.length ≤ stop - pos state + 1 ∧
    result state = gathered states

section Rounds

variable {σ α : Type} {next : σ → Option σ} {pos : σ → Nat} {stop : Nat}

theorem Advances.exists_rounds (advances : Advances next pos stop) (state : σ) :
    ∃ states, Rounds next state states ∧ states.length ≤ stop - pos state + 1 := by
  cases goesOn : next state with
  | none => exact ⟨[state], .last goesOn, Nat.le_add_left 1 _⟩
  | some later =>
      obtain ⟨further, inside⟩ := advances goesOn
      obtain ⟨states, rounds, short⟩ := exists_rounds advances later
      refine ⟨state :: states, .round goesOn rounds, ?_⟩
      rw [List.length_cons]
      omega
termination_by stop - pos state

theorem Loop.of_rounds {result : σ → α} {gathered : List σ → α} (advances : Advances next pos stop)
    (gathers : ∀ {state states}, Rounds next state states → result state = gathered states) :
    Loop next pos stop result gathered where
  advances := advances
  ends state := by
    obtain ⟨states, rounds, short⟩ := advances.exists_rounds state
    exact ⟨states, rounds, short, gathers rounds⟩

theorem Rounds.ne_nil {state : σ} {states : List σ} (rounds : Rounds next state states) :
    states ≠ [] := by
  cases rounds <;> exact List.cons_ne_nil _ _

end Rounds

/-! ## Tokens -/

/-- A round of reading one token after the other. -/
def nextStop (text : List Char) (stop pos : Nat) : Option Nat :=
  (nextToken text pos stop).map Token.stop

theorem loop_tokens (text : List Char) (stop : Nat) :
    Loop (nextStop text stop) id stop (fun pos => tokens text pos stop)
      (List.filterMap fun pos => nextToken text pos stop) := by
  apply Loop.of_rounds
  · intro pos later goesOn
    obtain ⟨token, read, rfl⟩ := Option.map_eq_some_iff.mp goesOn
    exact nextToken_advances read
  · intro pos positions rounds
    induction rounds with
    | last ended =>
        have none := Option.map_eq_none_iff.mp ended
        rw [tokens_of_none none, List.filterMap_cons, none]
        rfl
    | round goesOn _ later =>
        obtain ⟨token, read, rfl⟩ := Option.map_eq_some_iff.mp goesOn
        rw [tokens_of_some read, later, List.filterMap_cons, read]

/-- A round of passing over words that state an effect. -/
def nextEffect (effects : List String) (text : List Char) (stop pos : Nat) : Option Nat :=
  (nextToken text pos stop).bind fun token =>
    if effects.contains token.value then some token.stop else none

theorem loop_effects (effects : List String) (text : List Char) (stop : Nat) :
    Loop (nextEffect effects text stop) id stop (fun pos => afterEffects effects text pos stop)
      (fun positions => positions.getLast?.bind fun pos => nextToken text pos stop) := by
  apply Loop.of_rounds
  · intro pos later goesOn
    obtain ⟨token, read, effect⟩ := Option.bind_eq_some_iff.mp goesOn
    obtain ⟨-, same⟩ := Option.ite_none_right_eq_some.mp effect
    cases same
    exact nextToken_advances read
  · intro pos positions rounds
    induction rounds with
    | @last pos ended =>
        cases read : nextToken text pos stop with
        | none => simp [afterEffects_of_none read, read]
        | some token =>
            have other : effects.contains token.value = false := by
              simpa [nextEffect, read] using ended
            simp only [afterEffects_of_read read, other, Bool.false_eq_true, ↓reduceIte,
              List.getLast?_singleton, Option.bind_some, read]
    | round goesOn rounds later =>
        obtain ⟨token, read, effect⟩ := Option.bind_eq_some_iff.mp goesOn
        obtain ⟨states, same⟩ := Option.ite_none_right_eq_some.mp effect
        cases same
        rw [afterEffects_of_read read, if_pos states, later,
          List.getLast?_cons_of_ne_nil rounds.ne_nil]

/-! ## Headers of classes -/

/-- A round of the search for a class body. -/
def nextOpening (text : List Char) (pos : Nat) : Option Nat :=
  (nextToken text pos text.length).bind fun token =>
    if token.value == "\x7b" || endsHeader token then none else some (afterHeaderToken text token)

/-- Where the body starts if the search for it ends at this offset. -/
def bodyAt (text : List Char) (pos : Nat) : Option Nat :=
  (nextToken text pos text.length).bind fun token =>
    if token.value == "\x7b" then some token.stop else none

/-- The word that the search for a body passes at this offset, if it does. -/
def wordAt (text : List Char) (pos : Nat) : Option String :=
  (nextToken text pos text.length).bind fun token =>
    if token.kind == .word && token.value != "(" && token.value != "<" then some token.value
    else none

/-- The opening that a search shows which comes to these offsets. -/
def Opening.gathered (text : List Char) (positions : List Nat) : Opening where
  body := positions.getLast?.bind (bodyAt text)
  words := positions.dropLast.filterMap (wordAt text)

theorem loop_opening (text : List Char) :
    Loop (nextOpening text) id text.length (opening text) (Opening.gathered text) := by
  apply Loop.of_rounds
  · intro pos later goesOn
    obtain ⟨token, read, passed⟩ := Option.bind_eq_some_iff.mp goesOn
    obtain ⟨-, same⟩ := Option.ite_none_left_eq_some.mp passed
    cases same
    exact ⟨lt_afterHeaderToken read, (nextToken_advances read).2⟩
  · intro pos positions rounds
    induction rounds with
    | @last pos ended =>
        cases read : nextToken text pos text.length with
        | none => simp [opening_of_none read, Opening.gathered, bodyAt, read]
        | some token =>
            have stops : token.value ≠ "\x7b" → endsHeader token = true := by
              simpa [nextOpening, read] using ended
            by_cases brace : token.value = "\x7b"
            · simp [opening_of_some read, Opening.gathered, bodyAt, read, brace]
            · simp [opening_of_some read, Opening.gathered, bodyAt, read, brace, stops brace]
    | @round pos after positions goesOn rounds later =>
        obtain ⟨token, read, passed⟩ := Option.bind_eq_some_iff.mp goesOn
        obtain ⟨other, same⟩ := Option.ite_none_left_eq_some.mp passed
        cases same
        rw [Bool.or_eq_true, not_or, Bool.not_eq_true, Bool.not_eq_true] at other
        have first : (pos :: positions).dropLast = pos :: positions.dropLast :=
          List.dropLast_cons_of_ne_nil rounds.ne_nil
        have last : (pos :: positions).getLast? = positions.getLast? :=
          List.getLast?_cons_of_ne_nil rounds.ne_nil
        rw [opening_of_some read, other.1, other.2, later]
        by_cases word : (token.kind == .word && token.value != "(" && token.value != "<") = true
        · simp only [Opening.gathered, first, last, List.filterMap_cons, wordAt, read,
            Option.bind_some, word, ↓reduceIte, Bool.false_eq_true]
        · simp only [Opening.gathered, first, last, List.filterMap_cons, wordAt, read,
            Option.bind_some, word, ↓reduceIte, Bool.false_eq_true]

/-! ## Walks -/

/-- A round of a walk. -/
def Walk.next (dialect : Dialect) (text : List Char) (extent : Extent) (walk : Walk) :
    Option Walk :=
  (nextToken text walk.pos extent.stop).map fun token =>
    (walk.atToken dialect text extent token).1

/-- The header that a walk finds in a round, if it does. -/
def Walk.found (dialect : Dialect) (text : List Char) (extent : Extent) (walk : Walk) :
    Option Header :=
  (nextToken text walk.pos extent.stop).bind fun token =>
    (walk.atToken dialect text extent token).2

theorem loop_headers (dialect : Dialect) (text : List Char) (extent : Extent) :
    Loop (Walk.next dialect text extent) Walk.pos extent.stop (Walk.headers dialect text extent)
      (List.filterMap (Walk.found dialect text extent)) := by
  apply Loop.of_rounds
  · intro walk later goesOn
    obtain ⟨token, read, rfl⟩ := Option.map_eq_some_iff.mp goesOn
    exact ⟨Walk.lt_atToken dialect read, (nextToken_advances read).2⟩
  · intro walk walks rounds
    induction rounds with
    | last ended =>
        have none := Option.map_eq_none_iff.mp ended
        rw [Walk.headers_of_none none]
        simp [Walk.found, none]
    | round goesOn _ later =>
        obtain ⟨token, read, rfl⟩ := Option.map_eq_some_iff.mp goesOn
        rw [Walk.headers_of_some read, later, List.filterMap_cons, Walk.found, read,
          Option.bind_some]
        cases (Walk.atToken _ dialect text extent token).2 <;> rfl

/-! ## Every scan advances -/

/-- Literals and trivia are skipped to an offset behind their start and inside the text or the
window, and a group is closed by its delimiter or not at all. These are the only results that the
scans can have, and they have them on every text. The loops over tokens go further in each round
and come to an end, so an extraction does too: it is what becomes of the headers that the rounds
of one walk find. -/
theorem scans_advance (text : List Char) :
    (∀ pos, pos < text.length →
      pos < skipLiteral text pos ∧ skipLiteral text pos ≤ text.length ∧
        ∀ stop, LiteralScan text pos stop ↔ stop = skipLiteral text pos) ∧
    (∀ pos stop, pos ≤ stop → stop ≤ text.length →
      pos ≤ skipTrivia text pos stop ∧ skipTrivia text pos stop ≤ stop ∧
        (pos < stop → TriviaAt text pos → pos < skipTrivia text pos stop) ∧
        ∀ last, TriviaScan text stop pos last ↔ last = skipTrivia text pos stop) ∧
    (∀ start opening closing,
      ((∃ stop, findClosing text start opening closing = .ok stop ∧
            start ≤ stop ∧ stop < text.length ∧ text[stop]? = closing) ∨
          findClosing text start opening closing = .error ⟨start, text.drop start⟩) ∧
        ∀ found, GroupScan text opening closing 1 start found ↔
          found = (findClosing text start opening closing).toOption) ∧
    (∀ dialect extent, Loop (Walk.next dialect text extent) Walk.pos extent.stop
      (Walk.headers dialect text extent) (List.filterMap (Walk.found dialect text extent))) ∧
    Loop (nextOpening text) id text.length (opening text) (Opening.gathered text) ∧
    (∀ stop, Loop (nextStop text stop) id stop (fun pos => tokens text pos stop)
      (List.filterMap fun pos => nextToken text pos stop)) ∧
    (∀ effects stop, Loop (nextEffect effects text stop) id stop
      (fun pos => afterEffects effects text pos stop)
      (fun positions => positions.getLast?.bind fun pos => nextToken text pos stop)) ∧
    ∀ dialect file, ∃ walks,
      Rounds (Walk.next dialect text ⟨text.length, false⟩) (Walk.start 0) walks ∧
        walks.length ≤ text.length + 1 ∧
        extract dialect text file = entities dialect text file
          (walks.filterMap (Walk.found dialect text ⟨text.length, false⟩)) := by
  refine ⟨?literals, ?trivia, ?groups, fun dialect extent => loop_headers dialect text extent,
    loop_opening text, loop_tokens text, fun effects stop => loop_effects effects text stop,
    ?extraction⟩
  case literals =>
    intro pos inside
    obtain ⟨further, bounded⟩ := skipLiteral_bounds inside
    exact ⟨further, bounded, fun stop => literalScan_iff inside⟩
  case trivia =>
    intro pos stop ordered inside
    exact ⟨le_skipTrivia ordered, skipTrivia_le text pos stop,
      fun before trivia => lt_skipTrivia before trivia.triviaLength_pos,
      fun last => triviaScan_iff inside⟩
  case groups =>
    intro start opening closing
    refine ⟨?_, fun found => findClosing_toOption text start opening closing ▸ groupScan_iff⟩
    rw [findClosing_eq_groupStop]
    cases ends : groupStop text opening closing 1 start with
    | none => exact .inr rfl
    | some stop => exact .inl ⟨stop, rfl, groupStop_bounds ends⟩
  case extraction =>
    intro dialect file
    obtain ⟨walks, rounds, short, found⟩ :=
      (loop_headers dialect text ⟨text.length, false⟩).ends (Walk.start 0)
    exact ⟨walks, rounds, short, congrArg (entities dialect text file) found⟩

/-- An apostrophe that opens no literal, a comment that a window ends in, and a class without a
body after them. -/
theorem scans_advance_stray :
    let text := "'$\x7b/*\n*/ \x7d \n class A".toList
    0 < text.length ∧ 0 < skipLiteral text 0 ∧ skipLiteral text 0 ≤ text.length ∧
      LiteralScan text 0 1 ∧
      4 ≤ text.length ∧ TriviaAt text 3 ∧ 3 < skipTrivia text 3 4 ∧ TriviaScan text 4 3 4 ∧
      GroupScan text '\x7b' '\x7d' 1 3 (some 9) ∧
      nextStop text text.length 10 = some 18 ∧ 10 < 18 ∧ 10 < text.length := by
  intro text
  obtain ⟨literals, trivia, groups, -, -, words, -⟩ := scans_advance text
  have inside : 0 < text.length := by decide
  have window : 4 ≤ text.length := by decide
  have comment : TriviaAt text 3 := .inr (.inr (by decide))
  have word : nextStop text text.length 10 = some 18 := by decide +kernel
  obtain ⟨further, bounded, literal⟩ := literals 0 inside
  obtain ⟨-, -, advances, ends⟩ := trivia 3 4 (by decide) window
  obtain ⟨later, before⟩ := (words text.length).advances word
  refine ⟨inside, further, bounded, (literal 1).mpr ?_, window, comment,
    advances (by decide) comment, (ends 4).mpr ?_, ((groups 3 '\x7b' '\x7d').2 (some 9)).mpr ?_,
    word, later, before⟩
  all_goals decide +kernel

end DartBindings.Declaration
