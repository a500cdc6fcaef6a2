import DartBindings.Proofs.Dart.Fragments
import DartBindings.Text.Character

/-!
Literals. A literal ends at the first apostrophe that is not escaped, on the line where it begins;
a backslash starts an escape and a dollar sign an interpolation. The generator puts a string
between apostrophes as it is. So a literal denotes the string that it is written for exactly if
the string holds none of these characters and no line break.
-/

set_option autoImplicit false

namespace DartBindings.Dart

open Text Bridge

/-! ## Values of literals -/

/-- The UTF-16 units of a code point. -/
def codeUnits (code : Nat) : List Nat :=
  if code < 0x10000 then [code]
  else [0xD800 + (code - 0x10000) / 1024, 0xDC00 + (code - 0x10000) % 1024]

def units (text : List Char) : List Nat :=
  text.flatMap fun c => codeUnits c.toNat

def isLineBreak (c : Char) : Bool :=
  c == '\n' || c == '\r'

/-- The character stands for itself in a literal. -/
def isVerbatim (c : Char) : Bool :=
  !(c == '\'' || c == '\\' || c == '$' || isLineBreak c)

/-- The letters that stand for a control character after a backslash. -/
def controlLetters : List (Char × Nat) :=
  [('b', 8), ('t', 9), ('n', 10), ('v', 11), ('f', 12), ('r', 13)]

/-- The number that so many hexadecimal digits denote at the start of a text. -/
def hexadecimal? (count : Nat) (text : List Char) : Option Nat :=
  if count ≤ text.length then numeral? 16 (text.take count) else none

/-- The units that a text stands for after a backslash, and how many of its characters belong to
the escape. -/
def escape? : List Char → Option (List Nat × Nat)
  | [] => none
  | 'x' :: rest => (hexadecimal? 2 rest).map fun code => ([code], 3)
  | 'u' :: '{' :: rest =>
    let count := (rest.takeWhile (· != '}')).length
    if rest[count]? == some '}' && count ≤ 6 then
      ((hexadecimal? count rest).filter (· ≤ 0x10FFFF)).map fun code =>
        (codeUnits code, count + 3)
    else none
  | 'u' :: rest => (hexadecimal? 4 rest).map fun code => ([code], 5)
  | c :: _ =>
    if isLineBreak c then none
    else some (codeUnits ((controlLetters.lookup c).getD c.toNat), 1)

/-- The value of a literal, in UTF-16 units, from the text after its first apostrophe; `none` if
the literal does not end on its line, or if it is interpolated. -/
def contents? : List Char → Option (List Nat)
  | [] => none
  | '\'' :: _ => some []
  | '\\' :: rest =>
    match escape? rest with
    | some (unit, taken) => (contents? (rest.drop taken)).map (unit ++ ·)
    | none => none
  | c :: rest =>
    if isVerbatim c then (contents? rest).map (codeUnits c.toNat ++ ·) else none
termination_by text => text.length

/-- The value of the literal at the start of a text. -/
def literalValue? : List Char → Option (List Nat)
  | '\'' :: rest => contents? rest
  | _ => none

example : literalValue? "'a\\u\x7b1F600\x7d\\n' // text".toList =
    some [97, 0xD83D, 0xDE00, 10] := by
  decide +kernel

@[simp]
theorem units_nil : units [] = [] := rfl

@[simp]
theorem units_cons (c : Char) (text : List Char) :
    units (c :: text) = codeUnits c.toNat ++ units text :=
  List.flatMap_cons

@[simp]
theorem units_append (first second : List Char) :
    units (first ++ second) = units first ++ units second :=
  List.flatMap_append

theorem codeUnits_length (code : Nat) :
    1 ≤ (codeUnits code).length ∧ (codeUnits code).length ≤ 2 := by
  unfold codeUnits
  split <;> simp

theorem length_le_units (text : List Char) : text.length ≤ (units text).length := by
  induction text with
  | nil => simp
  | cons c text ih =>
      have one := (codeUnits_length c.toNat).1
      simp only [List.length_cons, units_cons, List.length_append]
      omega

theorem apostrophe_mem_of_units {text : List Char} (listed : 39 ∈ units text) : '\'' ∈ text := by
  obtain ⟨c, member, unit⟩ := List.mem_flatMap.mp listed
  unfold codeUnits at unit
  split at unit
  · have code : c.toNat = '\''.toNat := (List.mem_singleton.mp unit).symm
    rwa [← Char.toNat_inj.mp code]
  · simp at unit
    omega

/-! ## Escapes -/

theorem mapM_eq_none_of_mem {α β : Type} {f : α → Option β} {items : List α} {item : α}
    (listed : item ∈ items) (missing : f item = none) : items.mapM f = none := by
  induction items with
  | nil => simp at listed
  | cons first rest ih =>
      rw [List.mapM_cons]
      rcases List.mem_cons.mp listed with rfl | later
      · rw [missing]
        rfl
      · rw [ih later]
        cases f first <;> rfl

theorem hexadecimal?_spec {count code : Nat} {text : List Char}
    (read : hexadecimal? count text = some code) :
    count ≤ text.length ∧ '\'' ∉ text.take count := by
  unfold hexadecimal? at read
  split at read
  · refine ⟨by assumption, fun listed => ?_⟩
    rw [numeral?, mapM_eq_none_of_mem listed (by decide)] at read
    simp at read
  · cases read

/-- An escape has at least as many characters as units. It holds an apostrophe only if it stands
for one. -/
theorem escape?_spec {text : List Char} {unit : List Nat} {taken : Nat}
    (read : escape? text = some (unit, taken)) :
    unit.length ≤ (units (text.take taken)).length ∧
      ('\'' ∈ text.take taken → taken = 1 ∧ unit = [39]) := by
  have numeric (short : unit.length ≤ 2) (long : 2 ≤ taken) (fits : taken ≤ text.length)
      (bare : '\'' ∉ text.take taken) :
      unit.length ≤ (units (text.take taken)).length ∧
        ('\'' ∈ text.take taken → taken = 1 ∧ unit = [39]) := by
    have characters := length_le_units (text.take taken)
    rw [List.length_take_of_le fits] at characters
    exact ⟨by omega, fun listed => absurd listed bare⟩
  unfold escape? at read
  split at read
  · cases read
  · rename_i rest
    obtain ⟨code, digits, rfl, rfl⟩ := by simpa using read
    obtain ⟨fits, bare⟩ := hexadecimal?_spec digits
    exact numeric (by simp) (by simp) (by simpa using fits) (by simpa using bare)
  · rename_i rest
    dsimp only at read
    split at read
    · rename_i closed
      obtain ⟨code, ⟨digits, bound⟩, rfl, rfl⟩ := by
        simpa [Option.filter_eq_some_iff] using read
      obtain ⟨last, -⟩ := by simpa using closed
      obtain ⟨fits, bare⟩ := hexadecimal?_spec digits
      have inside := (List.getElem?_eq_some_iff.mp last).1
      refine numeric (codeUnits_length code).2 (by omega) ?_ ?_
      · rw [List.length_cons, List.length_cons]
        omega
      · rw [List.take_succ_cons, List.take_succ_cons, List.take_add_one, last]
        simpa using bare
    · cases read
  · rename_i rest _
    obtain ⟨code, digits, rfl, rfl⟩ := by simpa using read
    obtain ⟨fits, bare⟩ := hexadecimal?_spec digits
    exact numeric (by simp) (by simp) (by simpa using fits) (by simpa using bare)
  · rename_i c rest _ _ _
    split at read
    · cases read
    · obtain ⟨rfl, rfl⟩ := by simpa using read
      refine ⟨?_, fun listed => ?_⟩
      · rw [List.take_succ_cons, List.take_zero, units_cons, units_nil, List.append_nil]
        cases found : controlLetters.lookup c with
        | none => rfl
        | some code =>
            have small : ∀ code ∈ controlLetters.map (·.2), code < 0x10000 := by decide
            rw [Option.getD_some, codeUnits, if_pos (small code (mem_of_lookup found))]
            exact (codeUnits_length c.toNat).1
      · obtain rfl := by simpa using listed
        decide

/-! ## Contents -/

theorem contents?_cons_of_verbatim {c : Char} {rest : List Char} (plain : isVerbatim c = true) :
    contents? (c :: rest) = (contents? rest).map (codeUnits c.toNat ++ ·) := by
  have quote : c ≠ '\'' := by
    rintro rfl
    cases plain
  have slash : c ≠ '\\' := by
    rintro rfl
    cases plain
  rw [contents?, if_pos plain]
  all_goals assumption

theorem contents?_of_verbatim {text : List Char} (plain : ∀ c ∈ text, isVerbatim c = true)
    (after : List Char) : contents? (text ++ '\'' :: after) = some (units text) := by
  induction text with
  | nil => simp [contents?]
  | cons c text ih =>
      rw [List.forall_mem_cons] at plain
      rw [List.cons_append, contents?_cons_of_verbatim plain.1, ih plain.2, Option.map_some,
        units_cons]

/-- At some place of the expected units the value has ended or holds an apostrophe. -/
def Departs (value expected : List Nat) : Prop :=
  ∃ place < expected.length, ∀ unit ∈ value[place]?, unit = 39

theorem departs_of_length_lt {value expected : List Nat} (short : value.length < expected.length) :
    Departs value expected :=
  ⟨value.length, short, by simp⟩

theorem Departs.append {value expected first second : List Nat} (departs : Departs value expected)
    (short : first.length ≤ second.length) : Departs (first ++ value) (second ++ expected) := by
  obtain ⟨place, inside, apostrophe⟩ := departs
  refine ⟨first.length + place, by rw [List.length_append]; omega, ?_⟩
  rwa [List.getElem?_append_right (by omega), Nat.add_sub_cancel_left]

theorem not_departs_append {text : List Char} (bare : '\'' ∉ text) (more : List Nat) :
    ¬ Departs (units text ++ more) (units text) := by
  intro ⟨place, inside, apostrophe⟩
  have held : (units text)[place] = 39 :=
    apostrophe _ (by rw [List.getElem?_append_left inside]; exact List.getElem?_eq_getElem inside)
  exact bare (apostrophe_mem_of_units (held ▸ List.getElem_mem inside))

/-- An escape ends in the text before an apostrophe, or it takes the apostrophe. -/
theorem contents?_escape {rest after : List Char} {value : List Nat}
    (read : contents? ('\\' :: (rest ++ '\'' :: after)) = some value) :
    (∃ unit tail taken, value = unit ++ tail ∧
      unit.length ≤ (units (rest.take taken)).length ∧
      contents? (rest.drop taken ++ '\'' :: after) = some tail) ∨
    ∃ tail, value = 39 :: tail := by
  rw [contents?] at read
  split at read
  · rename_i unit taken escape
    obtain ⟨tail, readTail, rfl⟩ := Option.map_eq_some_iff.mp read
    obtain ⟨short, apostrophe⟩ := escape?_spec escape
    by_cases inside : taken ≤ rest.length
    · rw [List.drop_append_of_le_length inside] at readTail
      rw [List.take_append_of_le_length inside] at short
      exact .inl ⟨unit, tail, taken, rfl, short, readTail⟩
    · have held : '\'' ∈ (rest ++ '\'' :: after).take taken := by
        rw [List.take_append, List.take_cons (by omega)]
        simp
      obtain ⟨-, rfl⟩ := apostrophe held
      exact .inr ⟨tail, rfl⟩
  · cases read

/-- Where contents reach an apostrophe, they are the text before it as it stands, or an escape has
made the value depart from this text. -/
theorem contents?_append {text after : List Char} {value : List Nat} (bare : '\'' ∉ text)
    (read : contents? (text ++ '\'' :: after) = some value) :
    ((∀ c ∈ text, isVerbatim c = true) ∧ value = units text) ∨ Departs value (units text) := by
  match text with
  | [] =>
      obtain rfl : [] = value := by simpa [contents?] using read
      exact .inl ⟨by simp, rfl⟩
  | c :: rest =>
      have later : '\'' ∉ rest := fun listed => bare (List.mem_cons_of_mem _ listed)
      have quote : c ≠ '\'' := fun same => bare (same ▸ List.mem_cons_self)
      by_cases slash : c = '\\'
      · subst slash
        right
        rcases contents?_escape read with ⟨unit, tail, taken, rfl, short, readTail⟩ | ⟨tail, rfl⟩
        · -- The backslash itself makes the value shorter than the text.
          have split : units ('\\' :: rest) =
              (92 :: units (rest.take taken)) ++ units (rest.drop taken) := by
            rw [List.cons_append, ← units_append, List.take_append_drop]
            rfl
          rw [split]
          rcases contents?_append (fun listed => later (List.mem_of_mem_drop listed)) readTail
            with ⟨-, rfl⟩ | departs
          · exact departs_of_length_lt (by simp; omega)
          · exact departs.append (by simp; omega)
        · exact ⟨0, by simp [codeUnits], by simp⟩
      · rw [List.cons_append, contents?] at read
        · split at read
          · rename_i plain
            obtain ⟨tail, readTail, rfl⟩ := Option.map_eq_some_iff.mp read
            rw [units_cons, List.forall_mem_cons]
            rcases contents?_append later readTail with ⟨rest, rfl⟩ | departs
            · exact .inl ⟨⟨plain, rest⟩, rfl⟩
            · exact .inr (departs.append le_rfl)
          · cases read
        all_goals assumption
termination_by text.length

/-- A literal that is written for a text denotes it exactly if the text can stand in a literal as
it is. -/
theorem literalValue?_quoted (text : String) (after : List Char) :
    literalValue? ((quoted text).toList ++ after) = some (units text.toList) ↔
      ∀ c ∈ text.toList, isVerbatim c = true := by
  have opened : (quoted text).toList ++ after = '\'' :: (text.toList ++ '\'' :: after) := by
    simp [quoted]
  rw [opened, literalValue?]
  refine ⟨fun read => ?_, fun plain => contents?_of_verbatim plain after⟩
  by_cases held : '\'' ∈ text.toList
  · -- The literal ends too early, at the first apostrophe of the text at the latest.
    obtain ⟨front, rest, split, bare⟩ := List.eq_append_cons_of_mem held
    rw [split, units_append, List.append_assoc] at read
    rcases contents?_append bare read with ⟨-, same⟩ | departs
    · obtain ⟨missing, -⟩ : codeUnits 39 = [] ∧ units rest = [] := by simpa using same
      exact absurd missing (by decide)
    · exact absurd departs (not_departs_append bare _)
  · rcases contents?_append held read with ⟨plain, -⟩ | departs
    · exact plain
    · exact absurd departs (by simpa using not_departs_append held [])

/-! ## Literals of libraries -/

def memberLiterals (conventions : Conventions String) (className : String) (callable : Callable) :
    List String :=
  reachedName conventions className callable ::
    if callable.parameters.length < 2 then [] else callable.parameters.map (·.name)

/-- The strings for which a library has literals: the name of its channel, the names that its
functions reach, and the keys of payloads. -/
def libraryLiterals (conventions : Conventions String) (channel : String) (entities : List Entity) :
    List String :=
  channel :: entities.flatMap fun entity =>
    entity.callables.flatMap (memberLiterals conventions entity.name)

theorem literals_memberFragments (conventions : Conventions String) (className : String)
    (callable : Callable) :
    (memberFragments conventions className callable).filterMap Fragment.literal? =
      memberLiterals conventions className callable := by
  have listed : (marks (listFragments conventions.types callable.parameters)).filterMap
      Fragment.literal? = [] := by
    rw [marks_listFragments, List.filterMap_flatMap, List.flatMap_eq_nil_iff]
    exact fun parameter _ => rfl
  have sent : (marks (payloadFragments callable.parameters)).filterMap Fragment.literal? =
      if callable.parameters.length < 2 then [] else callable.parameters.map (·.name) := by
    rw [marks_payloadFragments]
    split
    · rfl
    · rw [List.filterMap_map, ← List.filterMap_eq_map]
      rfl
  rw [filterMap_memberFragments (fun _ => rfl) (fun _ => rfl), listed, sent]
  rfl

theorem literals_libraryFragments (conventions : Conventions String) (channel : String)
    (entities : List Entity) :
    (libraryFragments conventions channel entities).filterMap Fragment.literal? =
      libraryLiterals conventions channel entities := by
  simp [libraryFragments, libraryLiterals, classFragments, List.filterMap_flatMap,
    literals_memberFragments, List.filterMap_cons, Fragment.literal?]

theorem literalValue?_textOf {fragment : Fragment} {value : String}
    (literal : fragment.literal? = some value) (after : List Fragment) :
    literalValue? (textOf (fragment :: after)) = some (units value.toList) ↔
      ∀ c ∈ value.toList, isVerbatim c = true := by
  cases fragment with
  | code | type | declared => cases literal
  | literal text =>
      cases literal
      exact literalValue?_quoted value (textOf after)
  | entry key name =>
      cases literal
      rw [textOf_cons, Fragment.text, String.append_assoc, String.toList_append, List.append_assoc]
      exact literalValue?_quoted value _

/-- All literals of a library denote the strings for which they are written exactly if none of
these strings holds an apostrophe, a backslash, a dollar sign or a line break. -/
theorem literals_denote_iff (conventions : Conventions String) (channel : String)
    (entities : List Entity) :
    let fragments := libraryFragments conventions channel entities
    textOf fragments = (library conventions channel entities).toList ∧
      fragments.filterMap Fragment.literal? = libraryLiterals conventions channel entities ∧
      ((∀ before fragment after value, fragments = before ++ fragment :: after →
          fragment.literal? = some value →
          literalValue? (textOf (fragment :: after)) = some (units value.toList)) ↔
        ∀ value ∈ libraryLiterals conventions channel entities,
          ∀ c ∈ value.toList, isVerbatim c = true) := by
  have literals := literals_libraryFragments conventions channel entities
  refine ⟨textOf_libraryFragments conventions channel entities, literals, ?_⟩
  rw [← literals]
  constructor
  · intro denoted value written
    obtain ⟨fragment, listed, literal⟩ := List.mem_filterMap.mp written
    obtain ⟨before, after, split⟩ := List.append_of_mem listed
    have read := denoted before fragment after value split literal
    exact (literalValue?_textOf literal after).mp read
  · intro plain before fragment after value split literal
    refine (literalValue?_textOf literal after).mpr (plain value ?_)
    rw [split]
    exact List.mem_filterMap.mpr ⟨fragment, by simp, literal⟩

/-- A channel whose name holds an apostrophe has a literal that ends too early. -/
theorem not_denoted_apostrophe :
    let fragments := libraryFragments ⟨.empty, defaultEventBase⟩ "it's" []
    ¬ ∀ before fragment after value, fragments = before ++ fragment :: after →
      fragment.literal? = some value →
      literalValue? (textOf (fragment :: after)) = some (units value.toList) := by
  intro fragments denoted
  have read := denoted [_] (.literal "it's") [_] "it's" rfl rfl
  have plain := (literalValue?_textOf rfl _).mp read '\'' (by decide)
  cases plain

end DartBindings.Dart
