import DartBindings.Proofs.Declaration.Lockstep
import DartBindings.Proofs.Source.Front

/-!
Walks over the front of a text. Whichever of the tails comes after the front, a walk takes the same
steps and finds the same headers, and it never leaves the tokens of the front.
-/

set_option autoImplicit false

namespace DartBindings.Source

open Declaration

section Group

variable {tails : List Char → Prop} {text last : List Char} {pos : Nat} {opening closing : Char}

theorem Stands.skipGroup (stands : Stands tails text pos) (delimits : Delimits opening closing) :
    ∃ next, Stands tails text next ∧ ∀ tail, tails tail →
      skipGroup (text ++ tail) pos text.length opening closing = next := by
  unfold Declaration.skipGroup
  rcases stands.findClosing delimits with beyond | ⟨n, inside, after, found⟩
  · refine ⟨text.length, .atEnd tails text, fun tail follows => ?_⟩
    split
    · rename_i n found
      have := beyond tail n follows found
      omega
    · rfl
  · refine ⟨n + 1, after, fun tail follows => ?_⟩
    rw [found tail follows]
    exact Nat.min_eq_left inside

/-- A group in the whole text either takes a search out of the front, or it ends in the front at
the same place before all tails. -/
theorem Stands.skipGroup_whole (stands : Stands tails text pos)
    (delimits : Delimits opening closing) :
    (∀ tail, tails tail → text.length ≤
      Declaration.skipGroup (text ++ tail) pos (text ++ tail).length opening closing) ∨
    ∃ next, Stands tails text next ∧ ∀ tail, tails tail →
      Declaration.skipGroup (text ++ tail) pos (text ++ tail).length opening closing = next := by
  unfold Declaration.skipGroup
  rcases stands.findClosing delimits with beyond | ⟨n, inside, after, found⟩
  · refine .inl fun tail follows => ?_
    rw [List.length_append]
    split
    · rename_i n found
      have := beyond tail n follows found
      omega
    · exact Nat.le_add_right _ _
  · refine .inr ⟨n + 1, after, fun tail follows => ?_⟩
    rw [found tail follows, List.length_append]
    exact Nat.min_eq_left (by omega)

theorem Stands.afterParenthesis (stands : Stands tails text pos) (follows : tails last)
    (inside : pos < text.length) (here : text[pos]? = some '(') : Stands tails text (pos + 1) := by
  have there (tail : List Char) : (text ++ tail)[pos]? = some '(' := by
    rw [List.getElem?_append_left inside, here]
  rcases stands.nextToken with ⟨-, ended⟩ | ⟨token, after, read⟩
  · have ended := ended last
    rw [nextToken_parenthesis (there last) inside] at ended
    cases ended
  · have read := read last text.length follows (Nat.le_refl _)
    rw [nextToken_parenthesis (there last) inside] at read
    cases read
    exact after

theorem Stands.skipArguments (stands : Stands tails text pos) (follows : tails last) :
    ∃ next, Stands tails text next ∧ ∀ tail, tails tail →
      skipArguments (text ++ tail) pos text.length = next := by
  unfold Declaration.skipArguments
  by_cases inside : pos < text.length
  · simp only [List.getElem?_append_left inside]
    split
    · rename_i list
      simp only [Bool.and_eq_true, decide_eq_true_eq, beq_iff_eq] at list
      exact (stands.afterParenthesis follows inside list.2).skipGroup .round
    · exact ⟨pos, stands, fun _ _ => rfl⟩
  · refine ⟨pos, stands, fun tail _ => ?_⟩
    rw [if_neg]
    simp [inside]

end Group

end DartBindings.Source

namespace DartBindings.Declaration

open Source

section Walk

variable {dialect : Dialect} {tails : List Char → Prop} {text last : List Char} {shallow : Bool}

/-- Before each tail a reader in the front takes the same steps. -/
theorem lockstep_front (dialect : Dialect) {tail : List Char} (follows : tails last)
    (comes : tails tail) :
    Lockstep dialect (text ++ last) text.length (text ++ tail) text.length ⟨id, id⟩
      fun pos place => place = pos ∧ Stands tails text pos where
  nextToken := by
    rintro pos _ ⟨rfl, stands⟩
    obtain ⟨read, -, same⟩ := stands.read
    rw [same tail comes, same last follows]
    exact Option.map_id_apply.symm
  afterToken := by
    rintro pos _ token ⟨rfl, stands⟩ here
    obtain ⟨read, after, same⟩ := stands.read
    exact ⟨rfl, after token ((same last follows).symm.trans here)⟩
  skipGroup := by
    rintro pos _ opening closing ⟨rfl, stands⟩ delimits
    obtain ⟨next, there, same⟩ := stands.skipGroup delimits
    rw [same tail comes, same last follows]
    exact ⟨rfl, there⟩
  skipArguments := by
    rintro pos _ token ⟨rfl, stands⟩ here -
    obtain ⟨read, after, same⟩ := stands.read
    obtain ⟨next, there, skipped⟩ :=
      (after token ((same last follows).symm.trans here)).skipArguments follows
    rw [skipped last follows]
    exact ⟨skipped tail comes, there⟩

/-- Before all tails a walk that ends with the front finds the same headers there. -/
theorem sameHeaders (follows : tails last) {walk : Walk} (stands : Stands tails text walk.pos) :
    ∃ found, (∀ tail, tails tail →
        walk.headers dialect (text ++ tail) ⟨text.length, shallow⟩ = found) ∧
      ∀ header ∈ found, Stands tails text header.stop := by
  refine ⟨walk.headers dialect (text ++ last) ⟨text.length, shallow⟩, fun tail comes => ?_, ?_⟩
  · have same := ((lockstep_front dialect follows comes).headers shallow ⟨rfl, stands⟩).1
    exact same.trans (List.map_id _)
  · intro header member
    have behind := ((lockstep_front dialect follows follows).headers shallow ⟨rfl, stands⟩).2
    exact (behind header member).2

end Walk

end DartBindings.Declaration
