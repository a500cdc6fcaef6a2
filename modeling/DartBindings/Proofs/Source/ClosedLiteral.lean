import DartBindings.Proofs.Source.Gap

/-!
Which literals are closed. Between double quotes, a literal that ends before its text does is
closed, so it ends there whatever comes after it.
-/

set_option autoImplicit false

namespace DartBindings.Source

variable {mark known more : List Char}

theorem eq_double_of_isQuote {c : Char} (quote : isQuote c = true) (other : c ≠ '\'') :
    c = '"' := by
  simp only [isQuote, Bool.or_eq_true, beq_iff_eq] at quote
  exact quote.resolve_right other

theorem contentLength_pos {c : Char} {rest : List Char} {k : Nat} (nonempty : mark ≠ [])
    (read : contentLength mark (c :: rest) = some k) : 0 < k := by
  rcases contentLength_eq_or read with whole | ends
  · rw [whole]
    exact Nat.succ_pos _
  · by_contra none
    obtain rfl : k = 0 := by omega
    rw [List.take_zero] at ends
    exact nonempty (List.suffix_nil.mp ends)

/-- Contents that end with the known part of the text end there whatever comes after it. -/
theorem contentLength_ended (nonempty : mark ≠ []) (free : '\'' ∉ known) (goesOn : more ≠ [])
    (read : contentLength mark (known ++ more) = some known.length) (rest : List Char) :
    contentLength mark (known ++ rest) = some known.length := by
  -- An escape or a group of code takes several characters, so the induction is on the length.
  have positive := List.length_pos_iff.mpr goesOn
  induction size : known.length using Nat.strong_induction_on generalizing known with
  | _ length ih =>
    subst size
    have ends : mark <:+ known := by
      rcases contentLength_eq_or read with whole | ends
      · rw [List.length_append] at whole
        omega
      · rwa [List.take_left] at ends
    have same : mark.isPrefixOf (known ++ rest) = mark.isPrefixOf (known ++ more) := by
      rw [isPrefixOf_append ends.length_le, isPrefixOf_append ends.length_le]
    match known with
    | [] => exact absurd (List.suffix_nil.mp ends) nonempty
    | [c] =>
        obtain rfl : mark = [c] := by
          cases List.suffix_cons_iff.mp ends with
          | inl whole => exact whole
          | inr none => exact absurd (List.suffix_nil.mp none) nonempty
        exact contentLength_mark (List.isPrefixOf_iff_prefix.mpr ⟨rest, rfl⟩)
    | c :: d :: known =>
        have later : Settled known more := .inr fun member =>
          free (List.mem_cons_of_mem c (List.mem_cons_of_mem d member))
        cases stepsAlike (readsAlike later rest) same with
        | settled alike => exact alike.trans read
        | whole whole =>
            have total := Option.some.inj (read.symm.trans whole)
            rw [List.length_append] at total
            omega
        | @inside n ahead within there here =>
            rw [there] at read
            obtain ⟨k, further, total⟩ := Option.map_eq_some_iff.mp read
            have left := @List.length_drop _ n (c :: d :: known)
            obtain rfl : k = ((c :: d :: known).drop n).length := by omega
            have sameRest := ih _ (by omega) (fun member => free (List.mem_of_mem_drop member))
              further rfl
            rw [here, sameRest, Option.map_some, total]
        | beyond ahead there =>
            rw [there] at read
            obtain ⟨k, -, total⟩ := Option.map_eq_some_iff.mp read
            omega

/-- A mark of one quote does not become one of three when the text goes on another way. -/
theorem not_triple {rest : List Char} (goesOn : more ≠ [])
    (single : ¬ tripleQuote.isPrefixOf ('"' :: (known ++ more)) = true)
    (read : contentLength ['"'] (known ++ more) = some known.length)
    (apart : '"' :: known = ['"', '"'] → rest.head? ≠ some '"') :
    ¬ tripleQuote.isPrefixOf ('"' :: (known ++ rest)) = true := by
  match known with
  | [] =>
      obtain ⟨c, more, rfl⟩ := List.exists_cons_of_ne_nil goesOn
      exact absurd (contentLength_pos (List.cons_ne_nil _ _) read) (Nat.lt_irrefl 0)
  | [c] =>
      intro triple
      obtain ⟨-, later⟩ := List.cons_prefix_cons.mp (List.isPrefixOf_iff_prefix.mp triple)
      obtain ⟨same, third⟩ := List.cons_prefix_cons.mp later
      obtain ⟨after, rfl⟩ : ['"'] <+: rest := third
      exact apart (by rw [same]) rfl
  | c :: d :: known =>
      have short : tripleQuote.length ≤ ('"' :: c :: d :: known).length :=
        Nat.succ_le_succ (Nat.le_add_left 2 _)
      rw [← List.cons_append, isPrefixOf_append short] at single ⊢
      exact single

/-- A literal between double quotes that ends before its text does is closed. -/
theorem closedLiteral_of_tailLength (free : '\'' ∉ known) (goesOn : more ≠ [])
    (length : tailLength '"' (known ++ more) = known.length) : ClosedLiteral ('"' :: known) := by
  intro rest apart
  have total : tailLength '"' (known ++ rest) = known.length →
      literalLength ('"' :: known ++ rest) = ('"' :: known).length :=
    fun same => congrArg Nat.succ same
  apply total
  rw [tailLength.eq_def] at length ⊢
  split at length
  · rename_i triple
    have long : 2 ≤ known.length := by omega
    have opens : tripleQuote.isPrefixOf ('"' :: (known ++ rest)) = true := by
      have short : tripleQuote.length ≤ ('"' :: known).length := Nat.succ_le_succ long
      rw [← List.cons_append, isPrefixOf_append short] at triple ⊢
      exact triple
    rw [if_pos opens]
    rw [List.drop_append_of_le_length long] at length ⊢
    cases read : contentLength tripleQuote (known.drop 2 ++ more) with
    | none => cases eq_apostrophe_of_contentLength read
    | some k =>
        rw [read, Option.getD_some] at length
        obtain rfl : k = (known.drop 2).length := by rw [List.length_drop]; omega
        have later : '\'' ∉ known.drop 2 := fun member => free (List.mem_of_mem_drop member)
        have proper : tripleQuote ≠ [] := List.cons_ne_nil _ _
        rw [contentLength_ended proper later goesOn read rest]
        exact length
  · rename_i single
    cases read : contentLength ['"'] (known ++ more) with
    | none => cases eq_apostrophe_of_contentLength read
    | some k =>
        rw [read, Option.getD_some] at length
        subst length
        have proper : ['"'] ≠ [] := List.cons_ne_nil _ _
        rw [if_neg (not_triple goesOn single read apart),
          contentLength_ended proper free goesOn read rest, Option.getD_some]

theorem closedLiteral_of_lt {rest : List Char} (free : '\'' ∉ rest)
    (inside : tailLength '"' rest < rest.length) :
    ClosedLiteral ('"' :: rest.take (tailLength '"' rest)) := by
  have goesOn : rest.drop (tailLength '"' rest) ≠ [] := by
    rw [ne_eq, List.drop_eq_nil_iff]
    exact Nat.not_le.mpr inside
  apply closedLiteral_of_tailLength _ goesOn
  · rw [List.take_append_drop, List.length_take_of_le inside.le]
  · intro member
    exact free (List.mem_of_mem_take member)

/-- The literal that `quote` opens before `rest` ends there: it does not go on into a blank that
comes after it. -/
def EndsInside (quote : Char) (rest : List Char) : Prop :=
  tailLength quote (rest ++ [' ']) ≤ rest.length

instance (quote : Char) (rest : List Char) : Decidable (EndsInside quote rest) :=
  inferInstanceAs (Decidable (_ ≤ _))

section EndsInside

variable {rest : List Char}

theorem take_append_drop_append (rest more : List Char) (n : Nat) :
    rest.take n ++ (rest.drop n ++ more) = rest ++ more := by
  rw [← List.append_assoc, List.take_append_drop]

theorem EndsInside.split (inside : EndsInside '"' rest) {n : Nat}
    (total : tailLength '"' (rest ++ [' ']) = n) :
    (rest.take n).length = n ∧
      tailLength '"' (rest.take n ++ (rest.drop n ++ [' '])) = (rest.take n).length := by
  subst total
  have size := List.length_take_of_le inside
  rw [take_append_drop_append, size]
  exact ⟨rfl, rfl⟩

theorem EndsInside.closed (inside : EndsInside '"' rest) (free : '\'' ∉ rest) :
    ClosedLiteral ('"' :: rest.take (tailLength '"' (rest ++ [' ']))) := by
  have goesOn : rest.drop (tailLength '"' (rest ++ [' '])) ++ [' '] ≠ [] :=
    List.append_ne_nil_of_right_ne_nil _ (List.cons_ne_nil _ _)
  apply closedLiteral_of_tailLength _ goesOn (inside.split rfl).2
  intro member
  exact free (List.mem_of_mem_take member)

/-- What comes after the text, other than a double quote, makes no difference to a literal that ends
in it. -/
theorem EndsInside.tailLength_append (inside : EndsInside '"' rest) (free : '\'' ∉ rest)
    (apart : more.head? ≠ some '"') :
    tailLength '"' (rest ++ more) = tailLength '"' (rest ++ [' ']) := by
  have closed := inside.closed free
  generalize total : tailLength '"' (rest ++ [' ']) = n at closed ⊢
  obtain ⟨size, length⟩ := inside.split total
  have follows : '"' :: rest.take n = ['"', '"'] → (rest.drop n ++ more).head? ≠ some '"' := by
    intro empty
    have after := not_quote_after length empty
    rw [List.head?_append] at after ⊢
    cases later : (rest.drop n).head? with
    | none => exact apart
    | some d =>
        rw [later] at after
        exact after
  have same := closed (rest.drop n ++ more) follows
  rw [List.cons_append, take_append_drop_append] at same
  exact (Nat.succ.inj same).trans size

theorem EndsInside.tailLength_eq (inside : EndsInside '"' rest) (free : '\'' ∉ rest) :
    tailLength '"' rest = tailLength '"' (rest ++ [' ']) := by
  have alone : tailLength '"' (rest ++ []) = tailLength '"' (rest ++ [' ']) :=
    inside.tailLength_append free nofun
  rwa [List.append_nil] at alone

end EndsInside

end DartBindings.Source
