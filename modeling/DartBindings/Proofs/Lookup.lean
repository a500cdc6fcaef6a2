/-!
Looking up a key in a list of entries. Entries of other keys make no difference.
-/

set_option autoImplicit false

namespace DartBindings

theorem lookup_filter_of_ne {α β : Type} [BEq α] [LawfulBEq α] {entries : List (α × β)}
    {key other : α} (apart : key ≠ other) :
    (entries.filter fun entry => entry.1 != other).lookup key = entries.lookup key := by
  induction entries with
  | nil => rfl
  | cons first rest ih =>
      obtain ⟨here, entry⟩ := first
      by_cases same : here = other
      · subst same
        have missed : (key == here) = false := by simpa using apart
        simpa [List.lookup_cons, missed] using ih
      · have kept : (here != other) = true := by simpa using same
        simp only [List.filter_cons, kept, ↓reduceIte, List.lookup_cons, ih]

/-- Where no key occurs twice, each entry is found. -/
theorem lookup_eq_some_iff_mem {α β : Type} [BEq α] [LawfulBEq α] {entries : List (α × β)}
    {key : α} {entry : β} (distinct : (entries.map Prod.fst).Nodup) :
    entries.lookup key = some entry ↔ (key, entry) ∈ entries := by
  induction entries with
  | nil => simp
  | cons first rest ih =>
      obtain ⟨here, value⟩ := first
      rw [List.map_cons, List.nodup_cons] at distinct
      by_cases same : key = here
      · subst same
        have later : (key, entry) ∉ rest := fun member =>
          distinct.1 (List.mem_map.mpr ⟨_, member, rfl⟩)
        simp [later, eq_comm]
      · have missed : (key == here) = false := by simpa using same
        simp [List.lookup_cons, missed, same, ih distinct.2]

end DartBindings
