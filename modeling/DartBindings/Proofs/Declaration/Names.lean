import DartBindings.Declaration.Extraction
import DartBindings.Proofs.Bridge.Bridgeable
import DartBindings.Proofs.Declaration.Walk

/-!
The names that an extraction gives. Without quoted names in the text they are words, up to the
ending that a stream leaves out, and no class has two members of one name.
-/

set_option autoImplicit false

namespace DartBindings.Declaration

open Text Source Bridge

variable {dialect : Dialect} {text : List Char} {extent : Extent}

/-! ## Headers -/

theorem Walk.headers_isWord (plain : backtick ∉ text) {walk : Walk} {header : Header}
    (member : header ∈ walk.headers dialect text extent) : IsWord header.name.toList := by
  -- each token takes the walk further, so the induction is on what is left of the window
  induction room : extent.stop - walk.pos using Nat.strongRecOn generalizing walk with
  | ind bound ih =>
      cases read : nextToken text walk.pos extent.stop with
      | none =>
          rw [Walk.headers_of_none read] at member
          cases member
      | some token =>
          have advances := Walk.lt_atToken dialect read
          have inside := (nextToken_advances read).2
          rw [Walk.headers_of_some read] at member
          rcases List.mem_append.mp member with here | later
          · rw [Option.mem_toList] at here
            obtain ⟨name, reading, word, step⟩ := Walk.atToken_found here
            rw [step] at here
            cases here
            rw [nameToken_snd] at reading
            exact nextToken_word_isWord plain reading word
          · exact ih _ (by omega) later rfl

theorem headers_isWord (plain : backtick ∉ text) {start stop : Nat} {shallow : Bool}
    {header : Header} (member : header ∈ headers dialect text start stop shallow) :
    IsWord header.name.toList :=
  Walk.headers_isWord plain member

/-! ## Results -/

theorem Extraction.map_ok {α β : Type} {change : α → β} {extraction : Extraction α} {value : β}
    (result : (extraction.map change).result = .ok value) :
    ∃ found, extraction.result = .ok found ∧ change found = value := by
  unfold Extraction.map at result
  cases first : extraction.result with
  | error cause =>
      rw [first] at result
      cases result
  | ok found =>
      rw [first] at result
      exact ⟨found, rfl, Except.ok.inj result⟩

theorem Extraction.andThen_ok {α β : Type} {extraction : Extraction α} {next : α → Extraction β}
    {value : β} (result : (extraction.andThen next).result = .ok value) :
    ∃ found, extraction.result = .ok found ∧ (next found).result = .ok value := by
  unfold Extraction.andThen at result
  cases first : extraction.result with
  | error cause =>
      rw [first] at result
      cases result
  | ok found =>
      rw [first] at result
      exact ⟨found, rfl, result⟩

/-! ## Callables -/

theorem undivided_of_isWord {name : String} (named : IsWord name.toList) : Undivided name := by
  intro member
  exact absurd (named.chars '.' member) (by decide)

theorem undivided_streamName (dialect : Dialect) {name : String} (undivided : Undivided name) :
    Undivided (dialect.streamName name) := by
  unfold Dialect.streamName
  dsimp only
  split
  · intro member
    rw [String.toList_ofList] at member
    exact undivided (List.mem_of_mem_take member)
  · exact undivided

/-- What is exposed has a signature that was read. -/
theorem Dialect.signature?_of_exposed {wholeClass : Bool} {stop : Nat} {member : Header}
    {callable : Callable}
    (exposed : dialect.callable? text wholeClass stop member = .ok (some callable)) :
    ∃ signature, dialect.signature? text member.stop stop = .ok (some signature) ∧
      dialect.expose wholeClass member signature = some callable := by
  unfold Dialect.callable? at exposed
  split at exposed
  · cases exposed
  · cases read : dialect.signature? text member.stop stop with
    | error cause =>
        rw [read] at exposed
        cases exposed
    | ok signature =>
        rw [read] at exposed
        obtain ⟨found, rfl, shown⟩ := Option.bind_eq_some_iff.mp (Except.ok.inj exposed)
        exact ⟨found, rfl, shown⟩

theorem callable?_undivided {wholeClass : Bool} {stop : Nat} {member : Header}
    (undivided : Undivided member.name) {callable : Callable}
    (exposed : dialect.callable? text wholeClass stop member = .ok (some callable)) :
    Undivided callable.name := by
  obtain ⟨signature, -, shown⟩ := Dialect.signature?_of_exposed exposed
  unfold Dialect.expose at shown
  split at shown
  · cases shown
    exact undivided_streamName dialect undivided
  · split at shown
    · cases shown
      exact undivided
    · cases shown

/-- What the callables of one class are to each other and to the names that are taken. -/
structure Distinct (taken : List String) (callables : List Callable) : Prop where
  names : (callables.map (·.name)).Nodup
  fresh : ∀ callable ∈ callables, callable.name ∉ taken
  undivided : ∀ callable ∈ callables, Undivided callable.name

theorem Distinct.cons {taken : List String} {callable : Callable} {callables : List Callable}
    (fresh : callable.name ∉ taken) (undivided : Undivided callable.name)
    (rest : Distinct (callable.name :: taken) callables) :
    Distinct taken (callable :: callables) := by
  constructor
  · rw [List.map_cons, List.nodup_cons]
    refine ⟨?_, rest.names⟩
    intro repeated
    obtain ⟨other, among, same⟩ := List.mem_map.mp repeated
    exact rest.fresh other among (same ▸ List.mem_cons_self)
  · intro other among
    rcases List.mem_cons.mp among with rfl | later
    · exact fresh
    · exact fun member => rest.fresh other later (List.mem_cons_of_mem _ member)
  · intro other among
    rcases List.mem_cons.mp among with rfl | later
    · exact undivided
    · exact rest.undivided other later

theorem callables_distinct {className : String} {wholeClass : Bool} {stop : Nat}
    {taken : List String} {members : List Header} {found : List Callable}
    (undivided : ∀ member ∈ members, Undivided member.name)
    (result : (callables dialect text className wholeClass stop taken members).result = .ok found) :
    Distinct taken found := by
  induction members generalizing taken found with
  | nil =>
      cases result
      exact ⟨List.nodup_nil, by simp, by simp⟩
  | cons member rest ih =>
      have later := fun other among => undivided other (List.mem_cons_of_mem _ among)
      rw [callables] at result
      split at result
      · exact ih later result
      · cases exposed : dialect.callable? text wholeClass stop member with
        | error cause =>
            rw [exposed] at result
            cases result
        | ok exposed? =>
            rw [exposed] at result
            cases exposed? with
            | none => exact ih later result
            | some callable =>
                dsimp only at result
                split at result
                · exact ih later result
                · rename_i fresh
                  rw [List.contains_iff_mem] at fresh
                  have own := callable?_undivided (undivided member List.mem_cons_self) exposed
                  obtain ⟨others, later?, rfl⟩ := Extraction.map_ok result
                  exact .cons fresh own (ih later later?)

/-! ## Entities -/

theorem entity?_bridgeable (plain : backtick ∉ text) {file : Option RawText} {header : Header}
    (named : IsWord header.name.toList) {entity : Entity}
    (result : (entity? dialect text file header).result = .ok (some entity)) :
    Bridgeable entity := by
  unfold entity? at result
  dsimp only at result
  split at result
  · cases result
  · rename_i start _
    split at result
    · cases result
    · obtain ⟨stop, -, inner⟩ := Extraction.andThen_ok result
      obtain ⟨found, exposed, same⟩ := Extraction.map_ok inner
      split at same
      · cases same
      · rename_i nonempty
        cases same
        have members : ∀ member ∈ headers dialect text start stop true, Undivided member.name :=
          fun member among => undivided_of_isWord (headers_isWord plain among)
        have distinct := callables_distinct members exposed
        constructor
        · simpa using nonempty
        · exact distinct.names
        · exact undivided_of_isWord named
        · intro name member
          obtain ⟨callable, among, rfl⟩ := List.mem_map.mp member
          exact distinct.undivided callable among

theorem entities_bridgeable (plain : backtick ∉ text) {file : Option RawText}
    {classes : List Header} (named : ∀ header ∈ classes, IsWord header.name.toList)
    {found : List Entity} (result : (entities dialect text file classes).result = .ok found) :
    ∀ entity ∈ found, Bridgeable entity := by
  induction classes generalizing found with
  | nil =>
      cases result
      simp
  | cons header rest ih =>
      have later := fun other among => named other (List.mem_cons_of_mem _ among)
      rw [entities] at result
      split at result
      · exact ih later result
      · obtain ⟨first, own, inner⟩ := Extraction.andThen_ok result
        obtain ⟨others, rest, rfl⟩ := Extraction.map_ok inner
        intro entity member
        rcases List.mem_append.mp member with here | there
        · rw [Option.mem_toList] at here
          subst here
          exact entity?_bridgeable plain (named header List.mem_cons_self) own
        · exact ih later rest entity there

/-- What an extraction finds in a text without quoted names can be bridged. -/
theorem extract_bridgeable (plain : backtick ∉ text) {file : Option RawText} {found : List Entity}
    (result : (extract dialect text file).result = .ok found) :
    ∀ entity ∈ found, Bridgeable entity :=
  entities_bridgeable plain (fun _ member => headers_isWord plain member) result

end DartBindings.Declaration
