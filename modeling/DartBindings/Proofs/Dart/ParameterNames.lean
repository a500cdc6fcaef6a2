import DartBindings.Proofs.Dart.Fragments
import Mathlib.Data.List.Nodup

/-!
The names of parameters. A reserved name gets an underscore at its end wherever it is written, so
nothing that is declared is reserved, and a payload sends each native name with what is declared
for it. Two names are declared alike only if one of them is reserved and the other is that word
with its underscore.
-/

set_option autoImplicit false

namespace DartBindings.Dart

open Bridge

/-! ## Escaped names -/

section Escaped

variable {name first second : String} {names : List String}

theorem escapeReserved_of_mem (reserved : name ∈ reservedWords) :
    escapeReserved name = name ++ "_" := by
  simp [escapeReserved, reserved]

theorem escapeReserved_of_not_mem (free : name ∉ reservedWords) : escapeReserved name = name := by
  simp [escapeReserved, free]

theorem marked_not_mem_reservedWords : ∀ word ∈ reservedWords, word ++ "_" ∉ reservedWords := by
  decide +kernel

theorem escapeReserved_not_mem (name : String) : escapeReserved name ∉ reservedWords := by
  by_cases reserved : name ∈ reservedWords
  · rw [escapeReserved_of_mem reserved]
    exact marked_not_mem_reservedWords name reserved
  · rwa [escapeReserved_of_not_mem reserved]

theorem escapeReserved_marked (reserved : name ∈ reservedWords) :
    escapeReserved (name ++ "_") = escapeReserved name := by
  rw [escapeReserved_of_mem reserved,
    escapeReserved_of_not_mem (marked_not_mem_reservedWords name reserved)]

/-- Names that are escaped alike differ in the mark of a reserved word at most. -/
theorem eq_of_escapeReserved_eq (same : escapeReserved first = escapeReserved second) :
    first = second ∨ (first ∈ reservedWords ∧ second = first ++ "_") ∨
      (second ∈ reservedWords ∧ first = second ++ "_") := by
  by_cases here : first ∈ reservedWords <;> by_cases there : second ∈ reservedWords
  · rw [escapeReserved_of_mem here, escapeReserved_of_mem there] at same
    exact .inl (String.append_left_inj "_" |>.mp same)
  · rw [escapeReserved_of_mem here, escapeReserved_of_not_mem there] at same
    exact .inr (.inl ⟨here, same.symm⟩)
  · rw [escapeReserved_of_not_mem here, escapeReserved_of_mem there] at same
    exact .inr (.inr ⟨there, same⟩)
  · rw [escapeReserved_of_not_mem here, escapeReserved_of_not_mem there] at same
    exact .inl same

theorem nodup_map_escapeReserved_iff (distinct : names.Nodup) :
    (names.map escapeReserved).Nodup ↔
      ∀ name ∈ names, name ∈ reservedWords → name ++ "_" ∉ names := by
  constructor
  · intro apart name listed reserved marked
    have same := List.inj_on_of_nodup_map apart marked listed (escapeReserved_marked reserved)
    have lengths := congrArg String.length same
    simp at lengths
  · intro unmarked
    refine distinct.map_on fun first here second there same => ?_
    rcases eq_of_escapeReserved_eq same with same | ⟨reserved, rfl⟩ | ⟨reserved, rfl⟩
    · exact same
    · exact absurd there (unmarked first here reserved)
    · exact absurd here (unmarked second there reserved)

end Escaped

/-! ## Declared names and payloads -/

section Members

variable (conventions : Conventions String) (className : String) (callable : Callable)

theorem declared_memberFragments :
    (memberFragments conventions className callable).filterMap Fragment.declared? =
      callable.parameters.map fun parameter => escapeReserved parameter.name := by
  have sent : (marks (payloadFragments callable.parameters)).filterMap Fragment.declared? = [] := by
    rw [marks_payloadFragments]
    split <;> simp [Fragment.declared?]
  rw [filterMap_memberFragments (fun _ => rfl) (fun _ => rfl), sent, Fragment.declared?,
    Option.toList_none, List.append_nil, List.append_nil, marks_listFragments,
    List.filterMap_flatMap]
  exact (List.map_eq_flatMap ..).symm

theorem entries_memberFragments (several : 2 ≤ callable.parameters.length) :
    (memberFragments conventions className callable).filterMap Fragment.entry? =
      callable.parameters.map fun parameter =>
        (parameter.name, escapeReserved parameter.name) := by
  have listed : (marks (listFragments conventions.types callable.parameters)).filterMap
      Fragment.entry? = [] := by
    rw [marks_listFragments, List.filterMap_flatMap, List.flatMap_eq_nil_iff]
    exact fun parameter _ => rfl
  rw [filterMap_memberFragments (fun _ => rfl) (fun _ => rfl), listed, Fragment.entry?,
    Option.toList_none, List.nil_append, List.nil_append, marks_payloadFragments,
    if_neg (by omega), List.filterMap_map, ← List.filterMap_eq_map]
  rfl

/-- In the text of a function for parameters of different names, no reserved word is declared,
and a payload of several sends every native name with the name that is declared at its place. The
declared names differ too, exactly if no parameter has a reserved word for its name beside one
that is called by this word with an underscore. -/
theorem nodup_declared_iff (distinct : (callable.parameters.map (·.name)).Nodup) :
    let fragments := memberFragments conventions className callable
    let names := callable.parameters.map (·.name)
    let declared := fragments.filterMap Fragment.declared?
    let entries := fragments.filterMap Fragment.entry?
    textOf fragments = (memberFunction conventions className callable).toList ∧
      declared.length = names.length ∧
      (declared.Nodup ↔ ∀ name ∈ names, name ∈ reservedWords → name ++ "_" ∉ names) ∧
      (∀ name ∈ declared, name ∉ reservedWords) ∧
      (2 ≤ names.length → entries = names.zip declared) := by
  intro fragments names declared entries
  have escaped : declared = names.map escapeReserved := by
    rw [List.map_map]
    exact declared_memberFragments conventions className callable
  refine ⟨textOf_memberFragments conventions className callable, ?_, ?_, ?_, ?_⟩
  · rw [escaped, List.length_map]
  · rw [escaped]
    exact nodup_map_escapeReserved_iff distinct
  · rw [escaped]
    intro name listed
    obtain ⟨native, _, rfl⟩ := List.mem_map.mp listed
    exact escapeReserved_not_mem native
  · intro several
    have sent := entries_memberFragments conventions className callable
      (by rwa [List.length_map] at several)
    rw [escaped, List.map_map]
    exact sent.trans (List.zip_map' ..).symm

theorem nodup_declared_open :
    let callable : Callable := ⟨.call, "open", "Bool", [⟨"in", "String"⟩, ⟨"default", "Bool"⟩]⟩
    let declared :=
      (memberFragments ⟨.empty, "events/"⟩ "Router" callable).filterMap Fragment.declared?
    (callable.parameters.map (·.name)).Nodup ∧ declared.Nodup := by
  intro callable declared
  have distinct : (callable.parameters.map (·.name)).Nodup := by decide
  have unmarked : ∀ name ∈ ["in", "default"], name ∈ reservedWords →
      name ++ "_" ∉ ["in", "default"] := by
    decide +kernel
  exact ⟨distinct, (nodup_declared_iff _ _ callable distinct).2.2.1.mpr unmarked⟩

/-- A reserved name is escaped to the name of another parameter. -/
theorem not_nodup_declared :
    let callable : Callable := ⟨.call, "open", "Bool", [⟨"in", "String"⟩, ⟨"in_", "String"⟩]⟩
    let declared :=
      (memberFragments ⟨.empty, "events/"⟩ "Router" callable).filterMap Fragment.declared?
    (callable.parameters.map (·.name)).Nodup ∧ ¬ declared.Nodup := by
  intro callable declared
  have same : declared = ["in_", "in_"] := declared_memberFragments _ _ callable
  exact ⟨by decide, by simp [same]⟩

end Members

end DartBindings.Dart
