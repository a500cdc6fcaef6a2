import Mathlib.Data.List.Forall2

/-!
Results of steps that may fail: when steps in a row, or one step for each item of a list, succeed.
-/

set_option autoImplicit false

namespace DartBindings

theorem ok_of_toOption {ε α : Type} {result : Except ε α} {value : α}
    (same : result.toOption = some value) : result = .ok value := by
  cases result with
  | error cause => cases same
  | ok other =>
      cases same
      rfl

theorem bind_eq_ok_iff {ε α β : Type} {first : Except ε α} {next : α → Except ε β} {last : β} :
    first.bind next = .ok last ↔ ∃ value, first = .ok value ∧ next value = .ok last := by
  cases first <;> simp [Except.bind]

theorem map_const_eq_ok_iff {ε α : Type} {result : Except ε Unit} {value last : α} :
    (result.map fun _ => value) = .ok last ↔ last = value ∧ result = .ok () := by
  cases result <;> simp [Except.map, eq_comm]

/-- Two results that are the same but for their values and causes succeed together. -/
theorem eq_ok_iff_of_map {α β ε δ : Type} {first : Except ε α} {second : Except δ β} {f : α → β}
    {g : δ → ε} (same : first.map f = second.mapError g) (value : β) :
    second = .ok value ↔ ∃ found, first = .ok found ∧ f found = value := by
  cases first with
  | error cause =>
      cases second with
      | error other => exact ⟨nofun, nofun⟩
      | ok other => cases same
  | ok found =>
      cases second with
      | error other => cases same
      | ok other =>
          cases same
          simp

theorem mapM_eq_ok_iff {ε α β : Type} {read : α → Except ε β} {items : List α} {found : List β} :
    items.mapM read = .ok found ↔
      List.Forall₂ (fun item value => read item = .ok value) items found := by
  induction items generalizing found with
  | nil =>
      rw [List.mapM_nil, List.forall₂_nil_left_iff]
      exact ⟨fun done => by cases done; rfl, fun none => by rw [none]; rfl⟩
  | cons item items ih =>
      rw [List.mapM_cons, List.forall₂_cons_left_iff]
      change (read item).bind (fun value => (items.mapM read).bind fun later =>
        .ok (value :: later)) = _ ↔ _
      simp only [bind_eq_ok_iff, ih, Except.ok.injEq]
      constructor
      · rintro ⟨value, first, later, rest, rfl⟩
        exact ⟨value, later, first, rest, rfl⟩
      · rintro ⟨value, later, first, rest, rfl⟩
        exact ⟨value, first, later, rest, rfl⟩

theorem mapM_eq_some_map {α β : Type} {read : α → Option β} {value : α → β} {items : List α}
    (each : ∀ item ∈ items, read item = some (value item)) :
    items.mapM read = some (items.map value) := by
  induction items with
  | nil => rfl
  | cons item items ih =>
      rw [List.forall_mem_cons] at each
      rw [List.mapM_cons, each.1, ih each.2]
      rfl

end DartBindings
