import DartBindings.Dart.TypeMapping
import DartBindings.Proofs.Lookup
import DartBindings.Proofs.Text.Strip

/-!
Registered mappings. A mapping is registered for a spelling without its blanks, but a type is
looked up without the mark of an optional type too. So a mapping for a spelling with such a mark
is found under other spellings only, and the type itself is mapped as before. Of several
registrations under one key the last prevails, also over the built-in types, and no other type
is touched.
-/

set_option autoImplicit false

namespace DartBindings.Dart

open Text

/-! ## Bare spellings -/

theorem bareType_of_marked {text front : List Char} {mark : Char}
    (split : strip text = front ++ [mark]) (optional : isOptionalMark mark = true) :
    bareType text = strip front := by
  simp [bareType, split, optional]

theorem bareType_of_unmarked {text : List Char}
    (unmarked : ∀ mark ∈ (strip text).getLast?, isOptionalMark mark = false) :
    bareType text = strip text := by
  unfold bareType
  dsimp only
  split
  · rename_i mark last
    rw [if_neg (by simp [unmarked mark last])]
  · rfl

/-- The spelling under which a type is looked up. -/
def lookupKey (source : String) : String :=
  String.ofList (squeeze (bareType source.toList))

/-- The spelling ends in the mark of an optional type, blanks apart. -/
def isMarked (source : String) : Bool :=
  (strip source.toList).getLast?.any isOptionalMark

theorem isBlank_of_isOptionalMark {mark : Char} (optional : isOptionalMark mark = true) :
    isBlank mark = false := by
  simp only [isOptionalMark, Bool.or_eq_true, beq_iff_eq] at optional
  rcases optional with rfl | rfl <;> decide

theorem lookupKey_of_unmarked {source : String} (unmarked : isMarked source = false) :
    lookupKey source = compact source := by
  have plain : ∀ mark ∈ (strip source.toList).getLast?, isOptionalMark mark = false := by
    intro mark last
    rw [isMarked, Option.mem_def.mp last] at unmarked
    exact unmarked
  rw [lookupKey, bareType_of_unmarked plain, squeeze_strip, compact]

theorem squeeze_of_marked {text front : List Char} {mark : Char}
    (split : strip text = front ++ [mark]) (optional : isOptionalMark mark = true) :
    squeeze text = squeeze (bareType text) ++ [mark] := by
  rw [← squeeze_strip, split, squeeze_append, bareType_of_marked split optional, squeeze_strip,
    squeeze_of_solid (List.forall_mem_singleton.mpr (isBlank_of_isOptionalMark optional))]

/-- Up to its blanks a spelling loses a mark at its end at most. -/
theorem squeeze_bareType (text : List Char) :
    squeeze text = squeeze (bareType text) ∨
      ∃ mark, squeeze text = squeeze (bareType text) ++ [mark] := by
  by_cases unmarked : ∀ mark ∈ (strip text).getLast?, isOptionalMark mark = false
  · exact .inl (by rw [bareType_of_unmarked unmarked, squeeze_strip])
  · push Not at unmarked
    obtain ⟨mark, last, optional⟩ := unmarked
    obtain ⟨front, split⟩ := List.getLast?_eq_some_iff.mp last
    exact .inr ⟨mark, squeeze_of_marked split (by simpa using optional)⟩

/-- The key of a spelling with a mark is shorter than the spelling. -/
theorem lookupKey_of_marked {source : String} (marked : isMarked source = true) :
    lookupKey source ≠ compact source := by
  obtain ⟨mark, last, optional⟩ := (Option.any_eq_true _ _).mp marked
  obtain ⟨front, split⟩ := List.getLast?_eq_some_iff.mp last
  intro same
  have texts := String.ofList_injective same
  rw [squeeze_of_marked split optional] at texts
  have lengths := congrArg List.length texts
  simp at lengths

/-! ## Registrations -/

theorem TypeMapping.dartType_eq (mapping : TypeMapping) (source : String) :
    mapping.dartType source =
      (mapping.entries.lookup (lookupKey source)).getD (builtinType (bareType source.toList)) :=
  rfl

theorem TypeMapping.lookup_add (mapping : TypeMapping) (source target key : String) :
    (mapping.add source target).entries.lookup key =
      if key = compact source then some (trimmed target) else mapping.entries.lookup key := by
  rw [TypeMapping.add]
  split
  · rename_i same
    simp [same]
  · rename_i apart
    have missed : (key == compact source) = false := by simpa using apart
    rw [List.lookup_cons, missed, lookup_filter_of_ne apart]

/-- A registration changes the Dart types of the spellings that are looked up under its key. -/
theorem TypeMapping.dartType_add (mapping : TypeMapping) (source target spelling : String) :
    (mapping.add source target).dartType spelling =
      if lookupKey spelling = compact source then trimmed target
      else mapping.dartType spelling := by
  rw [dartType_eq, dartType_eq, lookup_add]
  split <;> rfl

/-- A registered mapping takes effect for its own spelling exactly if that does not end in the
mark of an optional type, or if the type was mapped so before. -/
theorem TypeMapping.dartType_add_iff (mapping : TypeMapping) (source target : String) :
    (mapping.add source target).dartType source = trimmed target ↔
      isMarked source = false ∨ mapping.dartType source = trimmed target := by
  rw [dartType_add]
  cases marked : isMarked source with
  | false => simp [lookupKey_of_unmarked marked]
  | true => simp [lookupKey_of_marked marked]

/-- A mapping for an optional type is not found by its spelling. -/
theorem dartType_optional_uuid :
    (TypeMapping.empty.add "UUID?" " String ").dartType "UUID?" ≠ trimmed " String " := by
  decide +kernel

/-! ## Sequences of registrations -/

/-- The spelling stripped, without one mark of an optional type at its end, and then without its
blanks. -/
def unmarkedKey (source : String) : String :=
  let text := strip source.toList
  String.ofList (squeeze (if isMarked source then text.dropLast else text))

theorem lookupKey_eq (source : String) : lookupKey source = unmarkedKey source := by
  rw [unmarkedKey]
  cases marked : isMarked source with
  | false =>
      rw [lookupKey_of_unmarked marked, compact, ← squeeze_strip]
      rfl
  | true =>
      obtain ⟨mark, last, optional⟩ := (Option.any_eq_true _ _).mp marked
      obtain ⟨front, split⟩ := List.getLast?_eq_some_iff.mp last
      rw [lookupKey, bareType_of_marked split optional, squeeze_strip]
      simp [split]

/-- The mapping after registrations of native spellings with their Dart types. -/
def TypeMapping.registered (calls : List (String × String)) : TypeMapping :=
  calls.foldl (fun mapping call => mapping.add call.1 call.2) .empty

theorem TypeMapping.registered_concat (calls : List (String × String)) (call : String × String) :
    registered (calls ++ [call]) = (registered calls).add call.1 call.2 := by
  rw [registered, List.foldl_concat, registered]

/-- The last registration for a key prevails, and no other key is known. -/
theorem TypeMapping.lookup_registered (calls : List (String × String)) (key : String) :
    (registered calls).entries.lookup key =
      (calls.reverse.find? fun call => compact call.1 == key).map fun call => trimmed call.2 := by
  induction calls using List.reverseRecOn with
  | nil => rfl
  | append_singleton calls call ih =>
      rw [registered_concat, lookup_add, List.reverse_append, List.reverse_singleton,
        List.singleton_append, List.find?_cons]
      by_cases latest : key = compact call.1
      · simp [latest]
      · have passed : (compact call.1 == key) = false := by simpa using Ne.symm latest
        rw [if_neg latest, passed, ih]

/-- After any registrations, the Dart type of a spelling is the one that was registered last for
its key. A spelling for whose key nothing was registered is mapped as without registrations. -/
theorem TypeMapping.dartType_registered (calls : List (String × String)) (source : String) :
    (registered calls).dartType source =
      match calls.reverse.find? fun call => compact call.1 == unmarkedKey source with
      | some call => trimmed call.2
      | none => TypeMapping.empty.dartType source := by
  have fresh : TypeMapping.empty.dartType source = builtinType (bareType source.toList) := by
    rw [dartType_eq, TypeMapping.empty, List.lookup_nil, Option.getD_none]
  rw [dartType_eq, lookupKey_eq, lookup_registered, fresh]
  cases calls.reverse.find? fun call => compact call.1 == unmarkedKey source with
  | none => rw [Option.map_none, Option.getD_none]
  | some call => rw [Option.map_some, Option.getD_some]

example : (TypeMapping.registered [("Int", "num"), (" In t", " BigInt "), ("Int?", "int")]).dartType
    "Int!" = "BigInt" := by
  decide +kernel

end DartBindings.Dart
