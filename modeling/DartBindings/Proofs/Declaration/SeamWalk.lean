import DartBindings.Proofs.Declaration.Lockstep
import DartBindings.Proofs.Declaration.Seam

/-!
Walks over a text and over the commented text find the same headers. Each step keeps the two
readers in step: a search for a delimiter passes over the comment, and so does whatever reads a
token. Only an argument list has to be attached, so the comment must not come before one.
-/

set_option autoImplicit false

namespace DartBindings.Declaration

open Text Source

/-! ## Groups -/

section Search

variable {seam : Seam} {pos other stop n : Nat} {opening closing : Char}

/-- The comment does not keep a search from the delimiter that it is for. -/
theorem Seam.Stands.findClosing (stands : seam.Stands pos stop) (matched : seam.At pos other)
    (delimits : Delimits opening closing) :
    Source.findClosing seam.commented other opening closing =
      match Source.findClosing seam.plain pos opening closing with
      | .ok n => .ok (seam.start n)
      | .error _ => .error ⟨other, seam.commented.drop other⟩ := by
  rw [findClosing_eq, findClosing_eq]
  rcases matched with ⟨early, rfl⟩ | ⟨late, rfl⟩
  · have size := @List.length_drop _ other seam.before
    obtain ⟨spellings, stretch⟩ := (stands.fair early).stretch
    rw [seam.drop_plain early, seam.drop_commented early]
    rcases stretch.search delimits 1 with ⟨level, passes⟩ | ⟨front, after, later, closes⟩
    · rw [passes _ seam.fits_after, passes _ seam.fits_comment,
        seam.isComment.search delimits level]
      cases closingIndex (some opening) (some closing) level seam.after with
      | none => rfl
      | some m =>
          have startEq : seam.start (other + (m + (seam.before.drop other).length)) =
              other + (m + (seam.before.drop other).length) + seam.comment.length :=
            seam.start_of_le (by omega)
          simp only [Option.map_some, Option.elim_some, startEq]
          congr 1
          omega
    · have length := congrArg List.length closes.split
      simp only [List.length_append, List.length_cons] at length
      rw [closes.found _ seam.fits_after, closes.found _ seam.fits_comment]
      have startEq : seam.start (other + front.length) = other + front.length :=
        seam.start_of_lt (by omega)
      simp only [Option.elim_some, startEq]
  · rw [seam.drop_later late]
    cases closingIndex (some opening) (some closing) 1 (seam.plain.drop pos) with
    | none => rfl
    | some m =>
        have startEq : seam.start (pos + m) = pos + m + seam.comment.length :=
          seam.start_of_le (by omega)
        simp only [Option.elim_some, startEq]
        congr 1
        omega

/-- A reader may stand after a group that its window holds. -/
theorem Seam.Stands.afterGroup (stands : seam.Stands pos stop)
    (delimits : Delimits opening closing)
    (found : Source.findClosing seam.plain pos opening closing = .ok n) (inside : n < stop) :
    seam.Stands (n + 1) stop := by
  obtain ⟨m, rfl, index⟩ := findClosing_ok found
  by_cases early : pos ≤ seam.before.length
  · obtain ⟨scope, rest, reads⟩ := stands.scope early
    obtain ⟨spellings, stretch⟩ := reads.stretch
    rw [seam.drop_plain early, reads.split, List.append_assoc] at index
    rcases stretch.search delimits 1 with ⟨level, passes⟩ | ⟨front, after, later, closes⟩
    · rw [passes _ (seam.fits_after.first rest)] at index
      obtain ⟨k, -, rfl⟩ := Option.map_eq_some_iff.mp index
      have window : seam.before.length ≤ stop := by
        by_contra early'
        have := reads.early (Nat.lt_of_not_le early')
        omega
      have place := reads.length_of_late early window
      exact stands.late (by omega) window
    · rw [closes.found _ (seam.fits_after.first rest)] at index
      cases index
      have split : scope = front ++ [closing] ++ after := by
        rw [closes.split, List.append_assoc, List.singleton_append]
      obtain ⟨earlier, through⟩ := closes.through
      have next := stands.advance reads early split
        ⟨earlier, through.mono fun c => (First.append seam.follow after rest c).mp⟩
        ⟨later, closes.stretch⟩
      rwa [List.length_append, List.length_singleton, ← Nat.add_assoc] at next
  · refine stands.late (by omega) (stands.beyond (by omega))

theorem Seam.Fair.at_comment (fair : seam.Fair pos) (early : pos ≤ seam.before.length) :
    seam.Fair seam.before.length := by
  obtain ⟨spellings, stretch⟩ := fair.stretch
  obtain ⟨earlier, chain⟩ := fair.chain
  obtain ⟨inside, -, read⟩ := stretch.tokens (seam.drop_plain early) seam.fits_after
  rw [List.length_drop, Nat.add_sub_cancel' early] at read
  refine ⟨⟨[], ?_⟩, earlier ++ inside, by rw [chain, read, List.append_assoc]⟩
  rw [List.drop_length]
  exact .nil

/-- The body of a group is a window to read in. -/
theorem Seam.Stands.body (stands : seam.Stands pos stop) (delimits : Delimits opening closing)
    (noAngle : closing ≠ '>')
    (found : Source.findClosing seam.plain pos opening closing = .ok n) : seam.Stands pos n := by
  obtain ⟨m, rfl, index⟩ := findClosing_ok found
  by_cases early : pos ≤ seam.before.length
  · have fair := stands.fair early
    obtain ⟨spellings, stretch⟩ := fair.stretch
    obtain ⟨before, chain⟩ := fair.chain
    have size := @List.length_drop _ pos seam.before
    have here := seam.drop_plain early
    rw [here] at index
    rcases stretch.search delimits 1 with ⟨level, passes⟩ | ⟨front, after, later, closes⟩
    · rw [passes _ seam.fits_after] at index
      obtain ⟨k, -, rfl⟩ := Option.map_eq_some_iff.mp index
      refine ⟨fun _ => fair, fun window => ?_, fun window => by omega⟩
      have place : pos + (k + (seam.before.drop pos).length) = seam.before.length := by omega
      rw [place]
      exact fair.at_comment early
    · rw [closes.found _ seam.fits_after] at index
      cases index
      obtain ⟨earlier, inside⟩ := closes.before noAngle
      have whole := closes.split
      have next : seam.before.drop (pos + front.length) = closing :: after := by
        rw [← List.drop_drop, whole, List.drop_left]
      have ahead : ∃ spellings, Stretch seam.follow ([closing] ++ after) spellings :=
        ⟨_, .token delimits.lexed closes.stretch⟩
      have reads : Stretch (First seam.follow (closing :: after)) front earlier :=
        inside.mono fun c => id
      refine ⟨fun _ => fair, fun _ => ⟨?_, ?_⟩, fun _ => ⟨front, earlier, ?_, ?_⟩⟩
      · rw [next]
        exact ahead
      · rw [whole, List.append_assoc] at here
        obtain ⟨between, -, read⟩ := reads.tokens here (seam.fits_after.first (closing :: after))
        exact ⟨before ++ between, by rw [chain, read, List.append_assoc]⟩
      · rw [next, whole]
      · rw [next]
        exact reads
  · refine ⟨fun _ => stands.fair (by omega), fun _ => by omega, fun _ => by omega⟩

end Search

/-! ## Readers in step -/

/-- Readers at these offsets of the two texts, in windows that end at the same place, are in
step. -/
structure Seam.InStep (seam : Seam) (stop pos other : Nat) : Prop where
  stands : seam.Stands pos stop
  matched : seam.At pos other

/-- The comment does not part an argument list from what it is attached to. -/
def Seam.KeepsArguments (seam : Seam) (dialect : Dialect) : Prop :=
  ∀ earlier token, tokens seam.plain 0 seam.plain.length =
      earlier ++ token :: tokens seam.plain seam.before.length seam.plain.length →
    token.stop = seam.before.length → token.kind = .marker ∨ dialect.isModifier token = true →
    seam.after.head? ≠ some '('

section InStep

variable {seam : Seam} {pos other stop : Nat} {opening closing : Char} {token : Token}

theorem Seam.InStep.nextToken (step : seam.InStep stop pos other) :
    Source.nextToken seam.commented other (seam.start stop) =
      (Source.nextToken seam.plain pos stop).map seam.token :=
  step.stands.nextToken step.matched

theorem Seam.InStep.afterToken (step : seam.InStep stop pos other)
    (read : Source.nextToken seam.plain pos stop = some token) :
    seam.InStep stop token.stop (seam.stop token.stop) :=
  ⟨step.stands.afterToken read, seam.at_stop token.stop⟩

theorem Seam.start_lt_start (seam : Seam) {n m : Nat} (less : n < m) :
    seam.start n < seam.start m := by
  unfold Seam.start
  split <;> split <;> omega

theorem Seam.InStep.atEnd (step : seam.InStep stop pos other) :
    seam.InStep stop stop (seam.start stop) :=
  ⟨⟨step.stands.fairStop, step.stands.fairStop, fun _ => ⟨[], [], rfl, .nil⟩⟩, seam.at_start stop⟩

theorem Seam.at_succ_start (seam : Seam) (n : Nat) : seam.At (n + 1) (seam.start n + 1) := by
  unfold Seam.At Seam.start
  split <;> omega

theorem Seam.InStep.skipGroup (step : seam.InStep stop pos other)
    (delimits : Delimits opening closing) :
    seam.InStep stop (skipGroup seam.plain pos stop opening closing)
      (skipGroup seam.commented other (seam.start stop) opening closing) := by
  have same := step.stands.findClosing step.matched delimits
  unfold Declaration.skipGroup
  cases found : findClosing seam.plain pos opening closing with
  | error failure =>
      rw [found] at same
      rw [same]
      exact step.atEnd
  | ok n =>
      rw [found] at same
      rw [same]
      dsimp only
      by_cases inside : n < stop
      · have order := seam.start_lt_start inside
        rw [Nat.min_eq_left (by omega), Nat.min_eq_left (by omega)]
        exact ⟨step.stands.afterGroup delimits found inside, seam.at_succ_start n⟩
      · have order : seam.start stop ≤ seam.start n := by
          rcases Nat.lt_or_eq_of_le (Nat.le_of_not_lt inside) with less | rfl
          · exact Nat.le_of_lt (seam.start_lt_start less)
          · exact Nat.le_refl _
        rw [Nat.min_eq_right (by omega), Nat.min_eq_right (by omega)]
        exact step.atEnd

theorem Seam.getElem?_commented (seam : Seam) (apart : pos ≠ seam.before.length) :
    seam.commented[seam.stop pos]? = seam.plain[pos]? := by
  rcases Nat.lt_or_gt_of_ne apart with early | late
  · rw [seam.stop_of_le (Nat.le_of_lt early), Seam.commented, Seam.plain,
      List.getElem?_append_left early, List.getElem?_append_left early]
  · rw [seam.stop_of_lt late, ← List.head?_drop, ← List.head?_drop,
      seam.drop_later (Nat.le_of_lt late)]

theorem Seam.getElem?_comment (seam : Seam) :
    seam.commented[seam.before.length]? = some '/' := by
  obtain ⟨c, tail, same⟩ := seam.isComment.exists_cons
  have length := seam.isComment []
  rw [same, List.append_nil, List.length_cons] at length
  rw [← List.head?_drop, Seam.commented, List.drop_left, same, eq_slash_of_commentLength length]
  rfl

theorem Seam.InStep.skipArguments {dialect : Dialect} (keeps : seam.KeepsArguments dialect)
    (step : seam.InStep stop pos other)
    (read : Source.nextToken seam.plain pos stop = some token)
    (takes : token.kind = .marker ∨ dialect.isModifier token = true) :
    seam.InStep stop (skipArguments seam.plain token.stop stop)
      (skipArguments seam.commented (seam.stop token.stop) (seam.start stop)) := by
  have next := step.afterToken read
  unfold Declaration.skipArguments
  by_cases place : token.stop = seam.before.length
  · obtain ⟨earlier, chain⟩ := step.stands.chain_token read (Nat.le_of_eq place)
    rw [place] at chain
    have noList := keeps earlier token chain place takes
    have plain : seam.plain[seam.before.length]? ≠ some '(' := by
      rwa [← List.head?_drop, Seam.plain, List.drop_left]
    rw [place, seam.stop_of_le (Nat.le_refl _)] at next ⊢
    rw [seam.getElem?_comment]
    simpa [plain] using next
  · rw [seam.getElem?_commented place]
    have window : seam.stop token.stop < seam.start stop ↔ token.stop < stop := by
      unfold Seam.stop Seam.start
      split <;> split <;> omega
    simp only [window]
    split
    · rename_i list
      simp only [Bool.and_eq_true, decide_eq_true_eq, beq_iff_eq] at list
      have parenthesis := next.afterToken (nextToken_parenthesis list.2 list.1)
      have order : seam.stop (token.stop + 1) = seam.stop token.stop + 1 := by
        unfold Seam.stop
        split <;> split <;> omega
      dsimp only at parenthesis
      rw [order] at parenthesis
      exact parenthesis.skipGroup .round
    · exact next

/-! ## Walks -/

@[simp] theorem Seam.token_kind (seam : Seam) (token : Token) :
    (seam.token token).kind = token.kind := rfl

@[simp] theorem Seam.token_value (seam : Seam) (token : Token) :
    (seam.token token).value = token.value := rfl

@[simp] theorem Seam.token_stop (seam : Seam) (token : Token) :
    (seam.token token).stop = seam.stop token.stop := rfl

def Seam.header (seam : Seam) (header : Header) : Header :=
  { header with start := seam.start header.start, stop := seam.stop header.stop }

theorem Seam.lockstep {dialect : Dialect} (keeps : seam.KeepsArguments dialect) (stop : Nat) :
    Lockstep dialect seam.plain stop seam.commented (seam.start stop) ⟨seam.start, seam.stop⟩
      (seam.InStep stop) where
  nextToken := Seam.InStep.nextToken
  afterToken := Seam.InStep.afterToken
  skipGroup := Seam.InStep.skipGroup
  skipArguments := Seam.InStep.skipArguments keeps

/-- Walks in step find the same headers, and a reader may stand after each of them. -/
theorem Seam.InStep.headers {dialect : Dialect} (keeps : seam.KeepsArguments dialect)
    (shallow : Bool) {walk : Walk} (step : seam.InStep stop walk.pos other) :
    { walk with pos := other }.headers dialect seam.commented ⟨seam.start stop, shallow⟩ =
        (walk.headers dialect seam.plain ⟨stop, shallow⟩).map seam.header ∧
      ∀ header ∈ walk.headers dialect seam.plain ⟨stop, shallow⟩, seam.Stands header.stop stop := by
  obtain ⟨same, behind⟩ := (seam.lockstep keeps stop).headers shallow step
  exact ⟨same, fun header member => (behind header member).stands⟩

end InStep

end DartBindings.Declaration
